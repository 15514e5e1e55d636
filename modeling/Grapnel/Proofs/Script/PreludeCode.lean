import Grapnel.Guest.Chunk
import Grapnel.Proofs.Text.Encoding
import Grapnel.Script.Prelude
import Grapnel.Script.SourceTag

namespace Grapnel

open Guest

namespace Utf8

theorem encode_intercalate (parts : List (List Char)) :
    encode (['\n'].intercalate parts) = [10].intercalate (parts.map encode) := by
  induction parts with
  | nil => rfl
  | cons part parts ih =>
    cases parts with
    | nil => simp only [List.intercalate_singleton, List.map_cons, List.map_nil]
    | cons next parts =>
      rw [List.map_cons, List.map_cons, List.intercalate_cons_cons, List.intercalate_cons_cons,
        encode_append, encode_append, ih]
      rfl

end Utf8

namespace Guest

/-- The tree that the bytes of a text describe. -/
def read (bytes : List UInt8) : Except SourceError Body :=
  match Scanner.tokens (bytes.length + 1) 1 bytes with
  | .ok first :: ahead =>
    let start : Reader :=
      { current := first, ahead := ahead, line := first.line, lastLine := 1,
        functions := [.openMain], depth := 0, fresh := 0 }
    (Reading.chunk (16 * (ahead.length + 8))).run' start
  | .error e :: _ => .error e
  | [] => .error ⟨1, text "unexpected symbol", some (text "<eof>")⟩

theorem parse_eq (source : Text) : parse source = read source.toList := rfl

end Guest

namespace Prelude

/-- The prelude line by line, as bytes. -/
def bytes : List UInt8 :=
  [10].intercalate ((captures ++ hardening ++ tasks ++ signals).map fun l => l.toUTF8.data.toList)

theorem source_toList : source.toList = bytes := by
  have hencode : (fun l : String => l.toUTF8.data.toList) = Utf8.encode ∘ String.toList := by
    funext l
    rw [← Utf8.toList_eq, Utf8.toList_toUTF8]
    rfl
  have hbreak : "\n".toList = ['\n'] := rfl
  rw [source, text, Utf8.toList_toUTF8, String.toList_intercalate, hbreak, Utf8.encode_intercalate,
    List.map_map, ← hencode, bytes]

/-- The name that a message has for a value. -/
def origin (kind name : String) : Option Origin := some ⟨kind, text name⟩

/-- The code of the function that takes the place of `load`. -/
def loadCode : Array Instr :=
  #[.loadCaptured 0,
    .loadSlot 1,
    .call 1 false (some 1) (origin "upvalue" "type"),
    .binary .eq .stack (.fixed (.ofString "string")) none (origin "constant" "string"),
    .jumpKeepUnless 11,
    .loadCaptured 1,
    .loadSlot 1,
    .push (.integer 1),
    .push (.integer 9),
    .call 3 false (some 1) (origin "upvalue" "string_sub"),
    .binary .eq .stack (.fixed (.ofString "=[tether:")) none (origin "constant" "=[tether:"),
    .jumpUnless 18,
    .push .nil,
    .push (.ofString "chunk name is reserved: "),
    .loadSlot 1,
    .binary .concat .stack .stack (origin "constant" "chunk name is reserved: ")
      (origin "local" "chunkname"),
    .ret 2 false,
    .jump 18,
    .binary .ne (.slot 3) (.fixed .nil) (origin "local" "env") none,
    .jumpUnless 28,
    .loadCaptured 2,
    .loadSlot 0,
    .loadSlot 1,
    .push (.ofString "t"),
    .loadSlot 3,
    .tailCall 4 false (origin "upvalue" "raw_load"),
    .ret 0 true,
    .jump 28,
    .loadCaptured 2,
    .loadSlot 0,
    .loadSlot 1,
    .push (.ofString "t"),
    .tailCall 3 false (origin "upvalue" "raw_load"),
    .ret 0 true,
    .ret 0 false]

/-- What runs when a function of the code is called. -/
structure IsLoad (p : Proto) : Prop where
  code : p.code = loadCode
  params : p.signature.params = 4
  slots : p.signature.slots = 4
  variadic : p.signature.variadic = false

/-- The first function that the text of a chunk makes. -/
def firstFunction (name source : Text) : Proto :=
  match Chunk.compile name source with
  | .ok main => main.nested.getD 0 default
  | .error _ => default

/-- The function that takes the place of `load`. -/
def hardenedLoad : Proto := firstFunction (text SourceTag.sandbox.chunkName) source

theorem eq_ok_of_isSome {result : Except SourceError Body} (h : result.toOption.isSome = true) :
    result = .ok (result.toOption.getD default) := by
  cases result with
  | ok body => rfl
  | error e => cases h

/-- The tree of the prelude. -/
def body : Body := (read bytes).toOption.getD default

theorem read_bytes : read bytes = .ok body := by
  have hreads : (read bytes).toOption.isSome = true := by decide +kernel
  rw [body]
  exact eq_ok_of_isSome hreads

/-- The main function of the prelude. -/
def main : Proto := Guest.compile (text SourceTag.sandbox.chunkName) body

theorem compile_source : Chunk.compile (text SourceTag.sandbox.chunkName) source = .ok main := by
  have hplain : source.toList.head? ≠ some 27 := by
    rw [source_toList]
    decide +kernel
  rw [Chunk.compile, if_neg hplain, parse_eq, source_toList, read_bytes]
  rfl

theorem hardenedLoad_eq : hardenedLoad = main.nested.getD 0 default := by
  rw [hardenedLoad, firstFunction, compile_source]

theorem isLoad_hardenedLoad : IsLoad hardenedLoad := by
  rw [hardenedLoad_eq]
  have hload : let p := main.nested.getD 0 default
      (p.code, p.signature.params, p.signature.slots, p.signature.variadic) =
        (loadCode, 4, 4, false) := by
    decide +kernel
  simp only [Prod.mk.injEq] at hload
  exact ⟨hload.1, hload.2.1, hload.2.2.1, hload.2.2.2⟩

end Prelude

end Grapnel
