import Grapnel.Guest.Chunk
import Mathlib

namespace Grapnel.Guest

namespace Proto

/-- The code of a function, or of one written inside it at any depth. -/
inductive Within : Proto → Proto → Prop
  | self (p : Proto) : Within p p
  | nested {p q r : Proto} : q ∈ p.nested → Within r q → Within r p

/-- Every function of a code was compiled under one name. -/
def Named (name : Text) (p : Proto) : Prop := ∀ q : Proto, q.Within p → q.source = name

theorem named_iff {name : Text} {p : Proto} :
    p.Named name ↔ p.source = name ∧ ∀ q ∈ p.nested, q.Named name := by
  constructor
  · intro h
    exact ⟨h p (.self p), fun q hq r hr => h r (.nested hq hr)⟩
  · rintro ⟨hsource, hnested⟩ q hq
    cases hq with
    | self => exact hsource
    | nested hmem hr => exact hnested _ hmem _ hr

end Proto

/-- Code that is being written under one name, with all that is nested in it. -/
structure Assembly.Named (name : Text) (a : Assembly) : Prop where
  source : a.source = name
  nested : ∀ p ∈ a.nested, p.Named name

namespace Assembling

variable {α β : Type} {name : Text}

/-- The code stays under its name. -/
def Keeps (name : Text) (m : Assembling α) : Prop :=
  ∀ a : Assembly, a.Named name → (m.run a).2.Named name

theorem keeps_pure (x : α) : Keeps name (pure x) := fun _ h => h

theorem keeps_bind {m : Assembling α} {f : α → Assembling β} (hm : Keeps name m)
    (hf : ∀ x, Keeps name (f x)) : Keeps name (m >>= f) := fun a h => hf _ _ (hm a h)

theorem keeps_ite {p : Prop} [Decidable p] {m n : Assembling α} (hm : Keeps name m)
    (hn : Keeps name n) : Keeps name (if p then m else n) := by
  split
  · exact hm
  · exact hn

theorem keeps_optional {p : Prop} [Decidable p] {m : Assembling Unit} {n : Assembling α}
    (hm : Keeps name m) (hn : Keeps name n) :
    Keeps name (if p then m >>= fun _ => n else n) :=
  keeps_ite (keeps_bind hm fun _ => hn) hn

theorem keeps_emit (line : Nat) (i : Instr) : Keeps name (emit line i) :=
  fun _ h => ⟨h.source, h.nested⟩

theorem keeps_freshMark : Keeps name freshMark := fun _ h => ⟨h.source, h.nested⟩

theorem keeps_place (mark : Nat) : Keeps name (place mark) := fun _ h => ⟨h.source, h.nested⟩

theorem keeps_get : Keeps name get := fun _ h => h

theorem keeps_addNested {p : Proto} (hp : p.Named name) : Keeps name (addNested p) := by
  intro a h
  refine ⟨h.source, fun q hq => ?_⟩
  rcases Array.mem_push.1 hq with hq | rfl
  · exact h.nested q hq
  · exact hp

theorem keeps_pushNils (line count : Nat) : Keeps name (pushNils line count) := by
  induction count with
  | zero => exact keeps_pure ()
  | succ n ih => exact keeps_bind (keeps_emit line _) fun _ => ih

theorem keeps_compileStores (line : Nat) (targets : List Expr) :
    Keeps name (compileStores line targets) := by
  induction targets with
  | nil => exact keeps_pure ()
  | cons target targets ih =>
    cases target <;> exact keeps_bind (keeps_emit line _) fun _ => ih

mutual

theorem keeps_compileWanted (want : Option Nat) : (e : Expr) → Keeps name (compileWanted want e)
  | .nil | .boolean _ | .numeral _ | .string _ | .varargs | .slot _ _ | .captured _ _ =>
    keeps_emit _ _
  | .constant _ value => keeps_compileWanted (some 1) value
  | .paren inner => keeps_compileWanted (some 1) inner
  | .index object key line => by
    rw [compileWanted]
    exact keeps_optional (keeps_compileWanted _ object)
      (keeps_optional (keeps_compileWanted _ key) (keeps_emit _ _))
  | .call callee args line =>
    keeps_bind (keeps_compileWanted _ callee) fun _ =>
      keeps_bind (keeps_compileArgs args) fun _ => keeps_emit _ _
  | .method object ident args selfLine line => by
    rw [compileWanted]
    exact keeps_optional (keeps_compileWanted _ object) <|
      keeps_bind (keeps_emit _ _) fun _ =>
        keeps_bind (keeps_compileArgs args) fun _ => keeps_emit _ _
  | .function body => keeps_compileClosure body 0
  | .unary op operand line => by
    rw [compileWanted]
    exact keeps_optional (keeps_compileWanted _ operand) (keeps_emit _ _)
  | .binary op left right line => by
    have hleft := keeps_compileWanted (some 1) left
    have hright := keeps_compileWanted (some 1) right
    cases op with
    | concat =>
      exact keeps_bind hleft fun _ => keeps_bind hright fun _ => keeps_emit _ _
    | _ =>
      rw [compileWanted]
      · exact keeps_optional hleft (keeps_optional hright (keeps_emit _ _))
      · exact nofun
  | .both left right =>
    keeps_bind keeps_freshMark fun _ => keeps_bind (keeps_compileWanted _ left) fun _ =>
      keeps_bind (keeps_emit _ _) fun _ => keeps_bind (keeps_compileWanted _ right) fun _ =>
        keeps_place _
  | .either left right =>
    keeps_bind keeps_freshMark fun _ => keeps_bind (keeps_compileWanted _ left) fun _ =>
      keeps_bind (keeps_emit _ _) fun _ => keeps_bind (keeps_compileWanted _ right) fun _ =>
        keeps_place _
  | .table items => keeps_bind (keeps_emit _ _) fun _ => keeps_compileItems items 1

theorem keeps_compileArgs : (es : List Expr) → Keeps name (compileArgs es)
  | [] => keeps_pure _
  | [e] => by
    rw [compileArgs]
    exact keeps_ite (keeps_bind (keeps_compileWanted _ e) fun _ => keeps_pure _)
      (keeps_bind (keeps_compileWanted _ e) fun _ => keeps_pure _)
  | e :: e' :: es =>
    keeps_bind (keeps_compileWanted _ e) fun _ => keeps_compileArgs (e' :: es)

theorem keeps_compileAdjusted (count : Nat) : (es : List Expr) →
    Keeps name (compileAdjusted count es)
  | [] => keeps_pushNils 0 count
  | [e] => by
    rw [compileAdjusted]
    exact keeps_ite (keeps_compileWanted _ e) <|
      keeps_bind (keeps_compileWanted _ e) fun _ => keeps_ite (keeps_emit _ _) (keeps_pushNils _ _)
  | e :: e' :: es =>
    keeps_bind (keeps_compileWanted _ e) fun _ =>
      keeps_optional (keeps_emit _ _) (keeps_compileAdjusted _ (e' :: es))

theorem keeps_compileItems : (items : List Item) → (next : Nat) →
    Keeps name (compileItems items next)
  | [], _ => keeps_pure ()
  | .keyed key value line :: items, next =>
    keeps_bind (keeps_compileWanted _ key) fun _ =>
      keeps_bind (keeps_compileWanted _ value) fun _ =>
        keeps_bind (keeps_emit _ _) fun _ => keeps_compileItems items next
  | [.positional e], next => by
    rw [compileItems]
    exact keeps_ite (keeps_bind (keeps_compileWanted _ e) fun _ => keeps_emit _ _)
      (keeps_bind (keeps_compileWanted _ e) fun _ => keeps_emit _ _)
  | .positional e :: item :: items, next =>
    keeps_bind (keeps_compileWanted _ e) fun _ =>
      keeps_bind (keeps_emit _ _) fun _ => keeps_compileItems (item :: items) (next + 1)

theorem keeps_compileClosure : (body : Body) → (line : Nat) →
    Keeps name (compileClosure body line)
  | .mk signature block, line => fun a h => by
    have hblock := keeps_compileBlock block
      ⟨a.source, #[], #[], #[], signature.jumps, [], a.fresh⟩ ⟨h.source, nofun⟩
    exact keeps_bind (keeps_addNested (Proto.named_iff.2 ⟨h.source, hblock.nested⟩))
      (fun _ => keeps_emit line _) a h

theorem keeps_compileBlock : (block : List Stat) → Keeps name (compileBlock block)
  | [] => keeps_pure ()
  | s :: rest => keeps_bind (keeps_compileStat s) fun _ => keeps_compileBlock rest

theorem keeps_compileTargets : (targets : List Expr) → Keeps name (compileTargets targets)
  | [] => keeps_pure ()
  | target :: targets => by
    have htargets := keeps_compileTargets targets
    cases target with
    | index object key line =>
      rw [compileTargets]
      exact keeps_optional (keeps_compileWanted _ object)
        (keeps_optional (keeps_compileWanted _ key) htargets)
    | _ => exact htargets

theorem keeps_compileStat : (s : Stat) → Keeps name (compileStat s)
  | .locals base count values line =>
    keeps_bind (keeps_compileAdjusted count values) fun _ => keeps_emit _ _
  | .assign targets values line =>
    keeps_bind (keeps_compileTargets targets) fun _ =>
      keeps_bind (keeps_compileAdjusted _ values) fun _ => keeps_compileStores _ _
  | .expression e => by
    rw [compileStat]
    exact keeps_ite (keeps_compileWanted _ e) <|
      keeps_bind (keeps_compileWanted _ e) fun _ => keeps_emit _ _
  | .block body => keeps_compileBlock body
  | .whileLoop condition body exit line =>
    keeps_bind keeps_freshMark fun _ => keeps_bind (keeps_place _) fun _ =>
      keeps_bind (keeps_compileWanted _ condition) fun _ => keeps_bind (keeps_emit _ _) fun _ =>
        keeps_bind (keeps_compileBlock body) fun _ => keeps_bind (keeps_emit _ _) fun _ =>
          keeps_place _
  | .repeatLoop body condition exit line =>
    keeps_bind keeps_freshMark fun _ => keeps_bind (keeps_place _) fun _ =>
      keeps_bind (keeps_compileBlock body) fun _ =>
        keeps_bind (keeps_compileWanted _ condition) fun _ =>
          keeps_bind (keeps_emit _ _) fun _ => keeps_place _
  | .cond condition body otherwise line =>
    keeps_bind keeps_freshMark fun _ => keeps_bind keeps_freshMark fun _ =>
      keeps_bind (keeps_compileWanted _ condition) fun _ => keeps_bind (keeps_emit _ _) fun _ =>
        keeps_bind (keeps_compileBlock body) fun _ => keeps_bind (keeps_emit _ _) fun _ =>
          keeps_bind (keeps_place _) fun _ => keeps_bind (keeps_compileBlock otherwise) fun _ =>
            keeps_place _
  | .countFor base start limit step body exit prepLine line =>
    keeps_bind (keeps_compileWanted _ start) fun _ =>
      keeps_bind (keeps_compileWanted _ limit) fun _ =>
        keeps_bind (keeps_compileWanted _ step) fun _ => keeps_bind (keeps_emit _ _) fun _ =>
          keeps_bind (keeps_emit _ _) fun _ => keeps_bind keeps_freshMark fun _ =>
            keeps_bind (keeps_place _) fun _ => keeps_bind (keeps_compileBlock body) fun _ =>
              keeps_bind (keeps_emit _ _) fun _ => keeps_place _
  | .eachFor base count values body exit prepLine line =>
    keeps_bind keeps_freshMark fun _ => keeps_bind keeps_freshMark fun _ =>
      keeps_bind (keeps_compileAdjusted _ values) fun _ => keeps_bind (keeps_emit _ _) fun _ =>
        keeps_bind (keeps_emit _ _) fun _ => keeps_bind (keeps_place _) fun _ =>
          keeps_bind (keeps_compileBlock body) fun _ => keeps_bind (keeps_place _) fun _ =>
            keeps_bind (keeps_emit _ _) fun _ => keeps_bind (keeps_emit _ _) fun _ =>
              keeps_place _
  | .localFunction slot body line =>
    keeps_bind (keeps_emit _ _) fun _ => keeps_bind (keeps_emit _ _) fun _ =>
      keeps_bind (keeps_compileClosure body line) fun _ => keeps_emit _ _
  | .ret [] line => keeps_bind (keeps_compileArgs []) fun _ => keeps_emit _ _
  | .ret [e] line => by
    have hargs : Keeps name (compileArgs [e]) := keeps_compileArgs [e]
    cases e with
    | call callee args callLine =>
      exact keeps_bind (keeps_compileWanted _ callee) fun _ =>
        keeps_bind (keeps_compileArgs args) fun _ =>
          keeps_bind (keeps_emit _ _) fun _ => keeps_emit _ _
    | method object ident args selfLine callLine =>
      rw [compileStat]
      exact keeps_optional (keeps_compileWanted _ object) <|
        keeps_bind (keeps_emit _ _) fun _ => keeps_bind (keeps_compileArgs args) fun _ =>
          keeps_bind (keeps_emit _ _) fun _ => keeps_emit _ _
    | _ => exact keeps_bind hargs fun _ => keeps_emit _ _
  | .ret (e :: e' :: es) line => by
    rw [compileStat]
    · exact keeps_bind (keeps_compileArgs (e :: e' :: es)) fun _ => keeps_emit _ _
    · exact nofun
    · exact nofun
  | .jump id line => keeps_bind keeps_get fun _ => keeps_emit _ _
  | .label id => keeps_place _

end

end Assembling

theorem compile_named (name : Text) (body : Body) : (compile name body).Named name := by
  have hnested := (Assembling.keeps_compileClosure body 0
    ⟨name, #[], #[], #[], [], [], 0⟩ ⟨rfl, nofun⟩).nested
  refine hnested _ ?_
  cases body with
  | mk signature block => exact Array.mem_push_self

namespace Scanner

theorem longMarks_find? (rest : List UInt8) :
    longMarks.find? (fun m => (text m).toList.isPrefixOf (61 :: 91 :: rest)) = none := by
  have hmarks : ∀ m ∈ longMarks, 2 ≤ (text m).toList.length ∧ (text m).toList.take 2 ≠ [61, 91] := by
    decide +kernel
  refine List.find?_eq_none.2 fun m hm hprefix => ?_
  obtain ⟨hlength, htake⟩ := hmarks m hm
  have h := List.isPrefixOf_iff_prefix.1 hprefix
  exact htake (h.take 2 |>.eq_of_length (by simpa))

theorem token_equals (line : Nat) (rest : List UInt8) : token line (61 :: 91 :: rest) =
    .ok (⟨.mark "=", ⟨#[61]⟩, line⟩, 91 :: rest) := by
  rw [token, longMarks_find?]
  rfl

theorem scan_equals {source : Text} {rest : List UInt8} (h : source.toList = 61 :: 91 :: rest) :
    ∃ ahead, scan source = .ok ⟨.mark "=", ⟨#[61]⟩, 1⟩ :: ahead := by
  refine ⟨tokens (rest.length + 2) 1 (91 :: rest), ?_⟩
  have hnewline : isNewline 61 = false := by decide
  have hblank : isBlankByte 61 = false := by decide
  rw [scan, h, List.length_cons, List.length_cons, tokens]
  · simp only [hnewline, hblank, token_equals, Bool.false_eq_true, if_false]
  · exact fun _ hdash => nomatch hdash

end Scanner

namespace Reading

variable {r : Reader} {fuel : Nat}

/-- A reader's complaint about the token that it has come to. -/
def refusedAt (r : Reader) : SourceError := ⟨r.line, text "unexpected symbol", some r.current.shown⟩

theorem primary_equals (h : r.current.token = .mark "=") :
    (primary (fuel + 1)).run r = .error (refusedAt r) := by
  simp only [primary, token, bind_pure_comp, failNear, bind_map_left, StateT.run_bind,
    StateT.run_get, pure_bind, h, Token.mark.injEq, String.reduceEq, imp_self, StateT.run_throw,
    refusedAt]
  rfl

theorem statement_equals (h : r.current.token = .mark "=") (hdepth : r.depth = 0) :
    (statement (fuel + 3)).run r = .error (refusedAt r) := by
  simp only [statement, deeper, maxDepth, ge_iff_le, line, bind_pure_comp, token, bind_map_left,
    Nat.toString_eq_repr, Bool.or_eq_true, pure_bind, LawfulMonadStateOf.get_bind_get_bind,
    suffixed, bind_assoc, LawfulMonadStateOf.set_bind_get_bind, StateT.run_bind, StateT.run_get,
    hdepth, nonpos_iff_eq_zero, OfNat.ofNat_ne_zero, ↓reduceIte, zero_add, h, Token.mark.injEq,
    String.reduceEq, imp_self, StateT.run_set, StateT.run_map, StateT.run_modify, map_pure,
    primary_equals]
  rfl

theorem chunk_equals (h : r.current.token = .mark "=") (hdepth : r.depth = 0) :
    (chunk (fuel + 4)).run r = .error (refusedAt r) := by
  simp only [chunk, statements, atBlockEnd, token, bind_pure_comp, bind_map_left, atWord,
    Functor.map_map, beq_iff_eq, bind_assoc, map_bind, StateT.run_bind, StateT.run_get, pure_bind,
    h, StateT.run_pure, Bool.false_eq_true, ↓reduceIte, reduceCtorEq, hdepth, statement_equals,
    StateT.run_map]
  rfl

end Reading

theorem parse_equals {source : Text} {rest : List UInt8} (h : source.toList = 61 :: 91 :: rest) :
    ∃ e, parse source = .error e := by
  obtain ⟨ahead, hscan⟩ := Scanner.scan_equals h
  have hfuel : 16 * (ahead.length + 8) = 16 * ahead.length + 124 + 4 := by omega
  rw [parse, hscan]
  simp only [hfuel]
  rw [StateT.run'_eq, Reading.chunk_equals rfl rfl]
  exact ⟨_, rfl⟩

namespace Chunk

theorem compile_equals {source : Text} {rest : List UInt8} (name : Text)
    (h : source.toList = 61 :: 91 :: rest) : ∃ message, compile name source = .error message := by
  obtain ⟨e, hparse⟩ := parse_equals h
  rw [compile, h, List.head?_cons, if_neg (by decide), hparse]
  exact ⟨_, rfl⟩

theorem named_of_compile {name source : Text} {p : Proto} (h : compile name source = .ok p) :
    p.Named name := by
  unfold compile at h
  split at h
  · cases h
  · split at h
    · cases h
      exact compile_named name _
    · cases h

end Chunk

end Grapnel.Guest
