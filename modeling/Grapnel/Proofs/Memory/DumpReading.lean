import Grapnel.Proofs.Memory.DumpLines

namespace Grapnel

namespace Hexdump

open Hexadecimal

variable {size : CellSize} {a : Address} {n i width : Nat} {bytes content : List UInt8}
  {w s : List Char}

/-- The number that exactly so many digits denote. -/
def readNumber? (width : Nat) (word : List Char) : Option Nat :=
  if word.length = width then ofDigits? word 0 else none

structure LineReading where
  label : Nat
  values : List Nat
  shown : List Char

def LineReading.unpacked (size : CellSize) (r : LineReading) : List UInt8 :=
  r.values.flatMap (LittleEndian.bytes size.bytes)

def readLabel? : List (List Char) → Option Nat
  | ['0' :: 'x' :: digits] => readNumber? 16 digits
  | _ => none

def readCells? (size : CellSize) (words : List (List Char)) : Option (List Nat) :=
  words.mapM (readNumber? (2 * size.bytes))

/-- What stands before the first bar and what stands behind it. -/
def cutAtBar? (s : List Char) : Option (List Char × List Char) :=
  if '|' ∈ s then some (s.takeWhile (· ≠ '|'), (s.dropWhile (· ≠ '|')).tail) else none

def readLine? (size : CellSize) (l : List Char) : Option LineReading := do
  let (front, rest) ← cutAtBar? l
  let (middle, shown) ← cutAtBar? rest
  let label ← readLabel? (Text.words front)
  let values ← readCells? size (Text.words middle)
  return ⟨label, values, shown.drop 1⟩

/-- The bytes of a dump of so many bytes, sixteen from a line and the rest from the last one. -/
def restore? (size : CellSize) : (n : Nat) → List (List Char) → Option (List UInt8)
  | _, [] => some []
  | n, l :: ls => do
    let r ← readLine? size l
    return (r.unpacked size).take (min lineBytes n) ++ (← restore? size (n - lineBytes) ls)

/-- How a byte stands among the characters of a line. -/
structure Shows (b : UInt8) (c : Char) : Prop where
  graphic : IsGraphic b → c.toNat = b.toNat
  other : ¬ IsGraphic b → c = '.'

theorem shows_visible (b : UInt8) : Shows b (visible b) := ⟨toNat_visible, visible_of_not_graphic⟩

theorem cutAtBar?_append (h : '|' ∉ w) : cutAtBar? (w ++ '|' :: s) = some (w, s) := by
  have hall : ∀ c ∈ w, decide (c ≠ '|') = true := by
    intro c hc
    exact decide_eq_true fun hbar => h (hbar ▸ hc)
  rw [cutAtBar?, if_pos List.mem_append_cons_self, List.takeWhile_append_of_pos hall,
    List.dropWhile_append_of_pos hall, List.takeWhile_cons_of_neg, List.dropWhile_cons_of_neg,
    List.append_nil]
  · rfl
  · decide
  · decide

theorem isWord_upper_padded (width n : Nat) : Text.IsWord (upper (padded width n)) := by
  constructor
  · exact mt List.map_eq_nil_iff.1 padded_ne_nil
  · intro c hc
    obtain ⟨d, hd⟩ := isDigit_of_mem_upper hc
    exact hd.not_blank

theorem readNumber?_padded (hwidth : 0 < width) (h : n < 16 ^ width) :
    readNumber? width (upper (padded width n)) = some n := by
  rw [readNumber?, upper, List.length_map, length_padded hwidth h, if_pos rfl]
  exact ofDigits?_padded

theorem readNumber?_cell (h : bytes.length ≤ size.bytes) :
    readNumber? (2 * size.bytes) (cell size bytes) = some (LittleEndian.ofBytes bytes) := by
  have hpos := bytes_pos size
  exact readNumber?_padded (by omega) (value_lt h)

theorem readLabel?_label (a : Address) : readLabel? (Text.words (label a)) = some a.toNat := by
  have hword : Text.IsWord ('0' :: 'x' :: upper (padded 16 a.toNat)) := by
    constructor
    · exact List.cons_ne_nil _ _
    · exact List.forall_mem_cons.2 ⟨rfl, List.forall_mem_cons.2 ⟨rfl, (isWord_upper_padded _ _).solid⟩⟩
  have hwords : Text.words (label a) = ['0' :: 'x' :: upper (padded 16 a.toNat)] := hword.words rfl
  rw [hwords, readLabel?]
  exact readNumber?_padded (by decide) a.toNat_lt

theorem words_cells (size : CellSize) (bytes : List UInt8) :
    Text.words (cells size bytes ++ [' ']) = (pieces size.bytes bytes).map (cell size) := by
  have hwords : ∀ w ∈ (pieces size.bytes bytes).map (cell size), Text.IsWord w := by
    intro w hw
    obtain ⟨bs, _, rfl⟩ := List.mem_map.1 hw
    exact isWord_upper_padded _ _
  rw [cells, List.append_assoc, ← List.replicate_succ', List.replicate_succ,
    ← List.flatMap_map (f := cell size) (g := (' ' :: ·)), Text.words_flatMap hwords,
    Text.words_blanks, List.append_nil]

theorem readCells?_cells (size : CellSize) {ps : List (List UInt8)}
    (h : ∀ bs ∈ ps, bs.length ≤ size.bytes) :
    readCells? size (ps.map (cell size)) = some (ps.map LittleEndian.ofBytes) := by
  induction ps with
  | nil => rfl
  | cons bs ps ih =>
    obtain ⟨hbs, hps⟩ := List.forall_mem_cons.1 h
    have hrest : (ps.map (cell size)).mapM (readNumber? (2 * size.bytes)) =
        some (ps.map LittleEndian.ofBytes) := ih hps
    rw [readCells?, List.map_cons, List.mapM_cons, readNumber?_cell hbs, hrest]
    rfl

/-- The values of a line are its bytes, with zeros behind. -/
theorem flatMap_bytes_pieces (hn : 0 < n) (bytes : List UInt8) :
    ∃ k, (pieces n bytes).flatMap (fun bs => LittleEndian.bytes n (LittleEndian.ofBytes bs)) =
      bytes ++ List.replicate k 0 := by
  fun_induction pieces n bytes with
  | case1 bytes h =>
    obtain rfl : bytes = [] := h.resolve_left hn.ne'
    exact ⟨0, rfl⟩
  | case2 bytes h ih =>
    obtain ⟨k, hk⟩ := ih
    rw [List.flatMap_cons, hk, LittleEndian.bytes_ofBytes (List.length_take_le _ _)]
    rcases Nat.le_total n bytes.length with hle | hle
    · refine ⟨k, ?_⟩
      rw [List.length_take_of_le hle, Nat.sub_self, List.replicate_zero, List.append_nil,
        ← List.append_assoc, List.take_append_drop]
    · refine ⟨n - (bytes.take n).length + k, ?_⟩
      rw [List.drop_eq_nil_of_le hle, List.nil_append, List.append_assoc, List.replicate_append_replicate,
        List.take_of_length_le hle]

def readingOf (size : CellSize) (a : Address) (bytes : List UInt8) : LineReading :=
  ⟨a.toNat, (pieces size.bytes bytes).map LittleEndian.ofBytes, bytes.map visible⟩

theorem readLine?_line (size : CellSize) (a : Address) (bytes : List UInt8) :
    readLine? size (line size a bytes) = some (readingOf size a bytes) := by
  have hmiddle : '|' ∉ cells size bytes ++ [' '] := by
    rw [List.mem_append, not_or]
    exact ⟨bar_not_mem_cells, by decide⟩
  have hline : line size a bytes =
      label a ++ '|' :: ((cells size bytes ++ [' ']) ++ '|' :: ' ' :: bytes.map visible) := by
    rw [line_eq, List.append_assoc]
    rfl
  have hcells : readCells? size ((pieces size.bytes bytes).map (cell size)) = _ :=
    readCells?_cells size fun bs => length_of_mem_pieces (bytes_pos size)
  simp only [readLine?, hline, cutAtBar?_append bar_not_mem_label, cutAtBar?_append hmiddle, readLabel?_label,
    words_cells, hcells, Option.bind_eq_bind, Option.bind_some, List.drop_one, List.tail_cons]
  rfl

theorem take_unpacked (size : CellSize) (a : Address) (bytes : List UInt8) :
    ((readingOf size a bytes).unpacked size).take bytes.length = bytes := by
  obtain ⟨k, hk⟩ := flatMap_bytes_pieces (bytes_pos size) bytes
  rw [LineReading.unpacked, readingOf, List.flatMap_map, hk, List.take_left]

theorem restore?_lines (size : CellSize) (here : Nat → Address) (content : List UInt8) :
    restore? size content.length
      ((pieces lineBytes content).mapIdx fun i bytes => line size (here i) bytes) = some content := by
  fun_induction pieces lineBytes content generalizing here with
  | case1 content h =>
    obtain rfl : content = [] := h.resolve_left (by decide)
    rfl
  | case2 content h ih =>
    have htake := take_unpacked size (here 0) (content.take lineBytes)
    have hrest := ih fun i => here (i + 1)
    rw [List.length_take] at htake
    rw [List.length_drop] at hrest
    rw [List.mapIdx_cons, restore?, readLine?_line, Option.bind_eq_bind, Option.bind_some, htake, hrest,
      Option.bind_eq_bind, Option.bind_some, List.take_append_drop]
    rfl

theorem reading_dumpLines (hfit : a.toNat + content.length < wordLimit)
    (h : (dumpLines size a content)[i]? = some w) :
    ∃ r, readLine? size w = some r ∧ r.label = a.toNat + i * lineBytes ∧
      (r.unpacked size).take (min lineBytes (content.length - i * lineBytes)) =
        (content.drop (i * lineBytes)).take lineBytes ∧
      List.Forall₂ Shows ((content.drop (i * lineBytes)).take lineBytes) r.shown := by
  obtain ⟨hi, rfl⟩ := getElem?_dumpLines.1 h
  refine ⟨_, readLine?_line _ _ _, ?_, ?_, ?_⟩
  · exact Address.toNat_above (by omega)
  · rw [← List.length_drop, ← List.length_take]
    exact take_unpacked _ _ _
  · rw [readingOf, List.forall₂_map_right_iff, List.forall₂_same]
    intro b _
    exact shows_visible b

/-- A dump loses nothing: it has a line for each sixteen bytes, every line has its label, its bytes as
the values of its cells and a character for each of them, and the lines give the bytes back. -/
theorem dump_reads_back (size : CellSize) (hfit : a.toNat + content.length < wordLimit) :
    ∃ dump, text size a content = .ok dump ∧
      (Text.lines dump.toList).length = content.length ⌈/⌉ lineBytes ∧
      (∀ i l, (Text.lines dump.toList)[i]? = some l → ∃ r, readLine? size l = some r ∧
        r.label = a.toNat + i * lineBytes ∧
        (r.unpacked size).take (min lineBytes (content.length - i * lineBytes)) =
          (content.drop (i * lineBytes)).take lineBytes ∧
        List.Forall₂ Shows ((content.drop (i * lineBytes)).take lineBytes) r.shown) ∧
      restore? size content.length (Text.lines dump.toList) = some content := by
  have hlabels : LabelsFit a content := by
    intro i hi
    omega
  obtain ⟨dump, hdump, hlines⟩ := text_of_fits size hlabels
  refine ⟨dump, hdump, ?_⟩
  rw [hlines]
  refine ⟨length_dumpLines, ?_, restore?_lines size _ content⟩
  intro i l hl
  exact reading_dumpLines hfit hl

/-- A line and a part of one, with a bar among the bytes and a cell that is cut. -/
def barredBytes : List UInt8 := [0x7C, 0x20, 0x41, 0, 1, 2, 3, 4, 5, 6, 7, 8, 9, 10, 11, 12, 0x7C, 0xFF, 0x7E]

theorem dump_reads_back_barred :
    ∃ dump, text .four ⟨0x1000⟩ barredBytes = .ok dump ∧
      (Text.lines dump.toList).length = 2 ∧
      restore? .four 19 (Text.lines dump.toList) = some barredBytes := by
  have hfit : Address.toNat ⟨0x1000⟩ + barredBytes.length < wordLimit := by decide
  obtain ⟨dump, hdump, hcount, _, hrestore⟩ := dump_reads_back .four hfit
  exact ⟨dump, hdump, hcount, hrestore⟩

end Hexdump

end Grapnel
