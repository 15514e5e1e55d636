import Grapnel.Memory.Hexdump
import Grapnel.Proofs.Memory.Place
import Grapnel.Proofs.Number.Reading
import Grapnel.Proofs.Text.Lines

namespace Grapnel

namespace Hexdump

open Hexadecimal

variable {size : CellSize} {n i : Nat} {a : Address} {c : Char} {bytes content : List UInt8}

theorem bytes_pos (size : CellSize) : 0 < size.bytes := by cases size <;> decide

theorem pieces_nil (n : Nat) : pieces n [] = [] := by
  rw [pieces, dif_pos (.inr rfl)]

theorem pieces_step (hn : 0 < n) (h : bytes ≠ []) :
    pieces n bytes = bytes.take n :: pieces n (bytes.drop n) := by
  rw [pieces, dif_neg (not_or.2 ⟨Nat.ne_of_gt hn, h⟩)]

theorem getElem?_pieces (hn : 0 < n) (bytes : List UInt8) (i : Nat) :
    (pieces n bytes)[i]? =
      if i * n < bytes.length then some ((bytes.drop (i * n)).take n) else none := by
  induction i generalizing bytes with
  | zero =>
    rcases eq_or_ne bytes [] with rfl | h
    · rw [pieces_nil]
      rfl
    · rw [pieces_step hn h, Nat.zero_mul, if_pos (List.length_pos_iff.2 h)]
      rfl
  | succ i ih =>
    rcases eq_or_ne bytes [] with rfl | h
    · rw [pieces_nil]
      rfl
    · rw [pieces_step hn h, List.getElem?_cons_succ, ih, List.length_drop, List.drop_drop,
        Nat.succ_mul, Nat.add_comm n]
      exact if_congr (by omega) rfl rfl

theorem lt_length_pieces (hn : 0 < n) : i < (pieces n bytes).length ↔ i * n < bytes.length := by
  rw [← not_iff_not, Nat.not_lt, ← List.getElem?_eq_none_iff, getElem?_pieces hn]
  split
  · next h => simp only [reduceCtorEq, h, not_true]
  · next h => simp only [h, not_false_eq_true]

theorem length_pieces (hn : 0 < n) (bytes : List UInt8) :
    (pieces n bytes).length = bytes.length ⌈/⌉ n := by
  apply eq_of_forall_lt_iff
  intro i
  rw [lt_length_pieces hn, ← not_le, ← not_le, ceilDiv_le_iff_le_mul hn, Nat.mul_comm]

theorem length_of_mem_pieces (hn : 0 < n) (h : bytes ∈ pieces n content) : bytes.length ≤ n := by
  obtain ⟨i, hi⟩ := List.mem_iff_getElem?.1 h
  rw [getElem?_pieces hn] at hi
  split at hi
  · cases hi
    exact List.length_take_le _ _
  · cases hi

/-- What a line has before its first bar. -/
def label (a : Address) : List Char := '0' :: 'x' :: (upper (padded 16 a.toNat) ++ [' '])

/-- The cells of a line and the blanks behind them, up to the last one before the second bar. -/
def cells (size : CellSize) (bytes : List UInt8) : List Char :=
  ((pieces size.bytes bytes).flatMap fun bs => ' ' :: cell size bs) ++
    List.replicate ((lineBytes - bytes.length + size.bytes - 1) / size.bytes * (2 * size.bytes + 1))
      ' '

theorem line_eq (size : CellSize) (a : Address) (bytes : List UInt8) :
    line size a bytes =
      label a ++ '|' :: (cells size bytes ++ ' ' :: '|' :: ' ' :: bytes.map visible) := by
  simp [line, label, cells]

theorem length_label (a : Address) : (label a).length = 19 := by
  have hpadded : (padded 16 a.toNat).length = 16 := length_padded (by decide) a.toNat_lt
  simp only [label, upper, List.length_cons, List.length_append, List.length_map, hpadded]
  rfl

theorem value_lt (h : bytes.length ≤ size.bytes) :
    LittleEndian.ofBytes bytes < 16 ^ (2 * size.bytes) := by
  rw [Nat.pow_mul]
  exact (LittleEndian.ofBytes_lt bytes).trans_le (Nat.pow_le_pow_right (by decide) h)

theorem length_cell (h : bytes.length ≤ size.bytes) : (cell size bytes).length = 2 * size.bytes := by
  have hpos := bytes_pos size
  rw [cell, upper, List.length_map, length_padded (by omega) (value_lt h)]

theorem not_mem_label (hdigit : ∀ d, ¬ IsDigit c d) (hblank : c ≠ ' ') (hx : c ≠ 'x') :
    c ∉ label a := by
  have hzero : c ≠ '0' := by
    rintro rfl
    exact hdigit 0 ⟨by decide, .inl rfl⟩
  have hdigits : c ∉ upper (padded 16 a.toNat) := by
    intro h
    obtain ⟨d, hd⟩ := isDigit_of_mem_upper h
    exact hdigit d hd
  simp [label, hzero, hx, hblank, hdigits]

theorem not_mem_cells (hdigit : ∀ d, ¬ IsDigit c d) (hblank : c ≠ ' ') : c ∉ cells size bytes := by
  have hcell (bs : List UInt8) : c ∉ cell size bs := by
    intro h
    obtain ⟨d, hd⟩ := isDigit_of_mem_upper h
    exact hdigit d hd
  simp [cells, hblank, hcell]

theorem not_isDigit_bar (d : Nat) : ¬ IsDigit '|' d := by
  intro hd
  have hvalue : value? '|' = none := by decide
  cases hvalue.symm.trans (value?_iff.2 hd)

theorem bar_not_mem_label : '|' ∉ label a := not_mem_label not_isDigit_bar (by decide) (by decide)

theorem bar_not_mem_cells : '|' ∉ cells size bytes := not_mem_cells not_isDigit_bar (by decide)

/-- A byte that is a graphic character of ASCII. -/
def IsGraphic (b : UInt8) : Prop := '!'.toNat ≤ b.toNat ∧ b.toNat ≤ '~'.toNat

theorem visible_of_graphic {b : UInt8} (h : IsGraphic b) : visible b = .ofNat b.toNat := by
  have hle : 33 ≤ b ∧ b ≤ 126 := h
  rw [visible, if_pos (by simpa using hle)]

theorem visible_of_not_graphic {b : UInt8} (h : ¬ IsGraphic b) : visible b = '.' := by
  have hle : ¬ (33 ≤ b ∧ b ≤ 126) := h
  rw [visible, if_neg (by simpa using hle)]

theorem toNat_visible {b : UInt8} (h : IsGraphic b) : (visible b).toNat = b.toNat := by
  have hlt : b.toNat < 0xD800 := Nat.lt_of_le_of_lt h.2 (by decide)
  rw [visible_of_graphic h, Char.toNat_ofNat, if_pos (.inl hlt)]

theorem visible_solid (b : UInt8) : Text.isBlank (visible b) = false := by
  by_cases h : IsGraphic b
  · have hn := toNat_visible h
    have hlow : 33 ≤ b.toNat := h.1
    have hhigh : b.toNat ≤ 126 := h.2
    simp only [Text.isBlank, hn, Bool.or_eq_false_iff, Bool.and_eq_false_iff, decide_eq_false_iff_not,
      beq_eq_false_iff_ne]
    omega
  · rw [visible_of_not_graphic h]
    rfl

theorem not_mem_line (hc : Text.isBlank c = true) (hblank : c ≠ ' ') : c ∉ line size a bytes := by
  have hdigit : ∀ d, ¬ IsDigit c d := by
    intro d hd
    cases hd.not_blank.symm.trans hc
  have hbar : c ≠ '|' := by
    rintro rfl
    cases hc
  have hx : c ≠ 'x' := by
    rintro rfl
    cases hc
  have hvisible : c ∉ bytes.map visible := by
    intro h
    obtain ⟨b, _, rfl⟩ := List.mem_map.1 h
    cases (visible_solid b).symm.trans hc
  rw [line_eq]
  simp only [List.mem_append, List.mem_cons, not_or]
  exact ⟨not_mem_label hdigit hblank hx, hbar, not_mem_cells hdigit hblank, hblank, hbar, hblank, hvisible⟩

/-- The lines of a dump, each for sixteen bytes. -/
def dumpLines (size : CellSize) (a : Address) (content : List UInt8) : List (List Char) :=
  (pieces lineBytes content).mapIdx fun i bytes => line size (a.above (i * lineBytes)) bytes

/-- The addresses of all lines fit into a word. -/
def LabelsFit (a : Address) (content : List UInt8) : Prop :=
  ∀ i, i * lineBytes < content.length → a.toNat + i * lineBytes < wordLimit

theorem linesFrom_fits {ps : List (List UInt8)} {first : Nat}
    (h : ∀ i < ps.length, a.toNat + (first + i) * lineBytes < wordLimit) :
    linesFrom size a first ps =
      .ok (ps.mapIdx fun i bytes => line size (a.above ((first + i) * lineBytes)) bytes) := by
  induction ps generalizing first with
  | nil => rfl
  | cons bytes ps ih =>
    have hhere : a.add (first * lineBytes) = .ok (a.above (first * lineBytes)) :=
      Address.add_eq_above (h 0 (Nat.zero_lt_succ _))
    have hrest : ∀ i < ps.length, a.toNat + (first + 1 + i) * lineBytes < wordLimit := by
      intro i hi
      rw [Nat.add_assoc, Nat.add_comm 1]
      exact h (i + 1) (Nat.succ_lt_succ hi)
    rw [linesFrom, hhere, ih hrest, List.mapIdx_cons]
    simp only [Nat.add_assoc, Nat.add_comm 1]
    rfl

theorem linesFrom_overflow {ps : List (List UInt8)} {first : Nat}
    (h : ∃ i < ps.length, wordLimit ≤ a.toNat + (first + i) * lineBytes) :
    linesFrom size a first ps = .error .addOverflow := by
  induction ps generalizing first with
  | nil =>
    obtain ⟨i, hi, _⟩ := h
    cases hi
  | cons bytes ps ih =>
    rw [linesFrom]
    by_cases hhere : a.toNat + first * lineBytes < wordLimit
    · have hrest : ∃ i < ps.length, wordLimit ≤ a.toNat + (first + 1 + i) * lineBytes := by
        obtain ⟨i, hi, hover⟩ := h
        cases i with
        | zero => exact absurd hhere (Nat.not_lt.2 hover)
        | succ i =>
          refine ⟨i, Nat.lt_of_succ_lt_succ hi, ?_⟩
          rwa [Nat.add_assoc, Nat.add_comm 1]
      rw [Address.add_eq_above hhere, ih hrest]
      rfl
    · rw [Address.add, if_neg hhere]
      rfl

theorem mem_dumpLines {l : List Char} (h : l ∈ dumpLines size a content) :
    ∃ b, ∃ bytes ∈ pieces lineBytes content, l = line size b bytes := by
  obtain ⟨i, hi, rfl⟩ := List.mem_mapIdx.1 h
  exact ⟨_, _, List.getElem_mem hi, rfl⟩

theorem lines_dumpLines : Text.lines (Text.ended (dumpLines size a content)) = dumpLines size a content := by
  have hsolid : ∀ l ∈ dumpLines size a content, '\n' ∉ l ∧ '\r' ∉ l := by
    intro l hl
    obtain ⟨b, bytes, _, rfl⟩ := mem_dumpLines hl
    exact ⟨not_mem_line rfl (by decide), not_mem_line rfl (by decide)⟩
  have hreturn : ∀ l ∈ dumpLines size a content, Text.stripReturn l = l := by
    intro l hl
    rw [Text.stripReturn, if_neg]
    intro hlast
    exact (hsolid l hl).2 (List.mem_of_getLast? hlast)
  have hlines := Text.lines_ended (fun l hl => (hsolid l hl).1) (List.not_mem_nil (a := '\n'))
  rw [List.append_nil, List.map_congr_left hreturn, List.map_id'] at hlines
  rw [hlines]
  exact List.append_nil _

theorem text_of_fits (size : CellSize) (h : LabelsFit a content) :
    ∃ dump, text size a content = .ok dump ∧ Text.lines dump.toList = dumpLines size a content := by
  have hfits : ∀ i < (pieces lineBytes content).length, a.toNat + (0 + i) * lineBytes < wordLimit := by
    intro i hi
    rw [Nat.zero_add]
    exact h i ((lt_length_pieces (by decide)).1 hi)
  refine ⟨String.ofList (Text.ended (dumpLines size a content)), ?_, ?_⟩
  · rw [text, linesFrom_fits hfits]
    simp only [Nat.zero_add]
    rfl
  · rw [String.toList_ofList, lines_dumpLines]

theorem text_of_not_fits (h : ¬ LabelsFit a content) : text size a content = .error .addOverflow := by
  have hover : ∃ i < (pieces lineBytes content).length, wordLimit ≤ a.toNat + (0 + i) * lineBytes := by
    simp only [LabelsFit, not_forall, Nat.not_lt] at h
    obtain ⟨i, hi, hover⟩ := h
    exact ⟨i, (lt_length_pieces (by decide)).2 hi, by rwa [Nat.zero_add]⟩
  rw [text, linesFrom_overflow hover]
  rfl

theorem getElem?_dumpLines {l : List Char} :
    (dumpLines size a content)[i]? = some l ↔ i * lineBytes < content.length ∧
      l = line size (a.above (i * lineBytes)) ((content.drop (i * lineBytes)).take lineBytes) := by
  rw [dumpLines, List.getElem?_mapIdx, getElem?_pieces (by decide), Option.map_eq_some_iff]
  simp only [Option.ite_none_right_eq_some, Option.some_inj]
  constructor
  · rintro ⟨_, ⟨hi, rfl⟩, rfl⟩
    exact ⟨hi, rfl⟩
  · rintro ⟨hi, rfl⟩
    exact ⟨_, ⟨hi, rfl⟩, rfl⟩

theorem length_dumpLines : (dumpLines size a content).length = content.length ⌈/⌉ lineBytes := by
  rw [dumpLines, List.length_mapIdx, length_pieces (by decide)]

end Hexdump

end Grapnel
