import Grapnel.Proofs.Memory.DumpLines

namespace Grapnel

namespace Hexdump

open Hexadecimal

variable {size : CellSize} {a : Address} {bytes content : List UInt8} {l : List Char} {i : Nat}

/-- Where the separator before the characters of a line begins: one place before the second bar. -/
def separatorColumn (l : List Char) : Nat :=
  l.idxOf '|' + (l.drop (l.idxOf '|' + 1)).idxOf '|'

/-- That column for a line of sixteen bytes: behind the label, its bar and the cells. -/
def fullColumn (size : CellSize) : Nat := 20 + lineBytes / size.bytes * (2 * size.bytes + 1)

theorem separatorColumn_line :
    separatorColumn (line size a bytes) = 20 + (cells size bytes).length := by
  have hfirst : (line size a bytes).idxOf '|' = 19 := by
    rw [line_eq, List.idxOf_append_of_notMem bar_not_mem_label, List.idxOf_cons_self, length_label]
  have hrest : (line size a bytes).drop (19 + 1) =
      cells size bytes ++ ' ' :: '|' :: ' ' :: bytes.map visible := by
    rw [line_eq, ← length_label a, ← List.drop_drop, List.drop_left]
    rfl
  rw [separatorColumn, hfirst, hrest, List.idxOf_append_of_notMem bar_not_mem_cells,
    List.idxOf_cons_ne _ (by decide), List.idxOf_cons_self]
  omega

theorem length_cells : (cells size bytes).length =
    (bytes.length ⌈/⌉ size.bytes + (lineBytes - bytes.length) ⌈/⌉ size.bytes) *
      (2 * size.bytes + 1) := by
  have hcells : ∀ bs ∈ pieces size.bytes bytes, (' ' :: cell size bs).length = 2 * size.bytes + 1 := by
    intro bs hbs
    rw [List.length_cons, length_cell (length_of_mem_pieces (bytes_pos size) hbs)]
  rw [cells, List.length_append, List.length_flatMap, List.map_congr_left hcells, List.map_const',
    List.sum_replicate, length_pieces (bytes_pos size), List.length_replicate, smul_eq_mul, Nat.add_mul]
  rfl

/-- A cell that is cut counts both as written and as missing. -/
theorem count_cells (h : bytes.length ≤ lineBytes) :
    bytes.length ⌈/⌉ size.bytes + (lineBytes - bytes.length) ⌈/⌉ size.bytes =
      lineBytes / size.bytes + if size.bytes ∣ bytes.length then 0 else 1 := by
  rw [Nat.ceilDiv_eq_add_pred_div, Nat.ceilDiv_eq_add_pred_div]
  by_cases hdvd : size.bytes ∣ bytes.length
  · rw [if_pos hdvd]
    cases size <;> simp only [CellSize.bytes, lineBytes] at * <;> omega
  · rw [if_neg hdvd]
    cases size <;> simp only [CellSize.bytes, lineBytes] at * <;> omega

theorem separatorColumn_eq (h : bytes.length ≤ lineBytes) :
    separatorColumn (line size a bytes) =
      fullColumn size + if size.bytes ∣ bytes.length then 0 else 2 * size.bytes + 1 := by
  rw [separatorColumn_line, length_cells, count_cells h, fullColumn, Nat.add_mul, Nat.add_assoc,
    ite_mul, Nat.zero_mul, Nat.one_mul]

theorem separatorColumn_full (h : bytes.length = lineBytes) :
    separatorColumn (line size a bytes) = fullColumn size := by
  have hdvd : size.bytes ∣ bytes.length := by
    rw [h]
    cases size <;> decide
  rw [separatorColumn_eq h.le, if_pos hdvd, Nat.add_zero]

theorem dvd_piece_iff (h : i * lineBytes < content.length) :
    size.bytes ∣ ((content.drop (i * lineBytes)).take lineBytes).length ↔
      (i + 1) * lineBytes ≤ content.length ∨ size.bytes ∣ content.length := by
  rw [List.length_take, List.length_drop]
  cases size <;> simp only [CellSize.bytes, lineBytes] at * <;> omega

theorem separatorColumn_dumpLines (h : (dumpLines size a content)[i]? = some l) :
    separatorColumn l = fullColumn size +
      if (i + 1) * lineBytes ≤ content.length ∨ size.bytes ∣ content.length then 0
      else 2 * size.bytes + 1 := by
  obtain ⟨hi, rfl⟩ := getElem?_dumpLines.1 h
  rw [separatorColumn_eq (List.length_take_le _ _)]
  simp only [dvd_piece_iff hi]

/-- The line that holds the last byte has the cell that is cut. -/
theorem exists_cut_line (hcut : ¬ size.bytes ∣ content.length) :
    ∃ i, i * lineBytes < content.length ∧ ¬ (i + 1) * lineBytes ≤ content.length := by
  have hpos : 0 < content.length := Nat.pos_of_ne_zero fun h => hcut (h ▸ Nat.dvd_zero _)
  refine ⟨(content.length - 1) / lineBytes, ?_, ?_⟩
  · simp only [lineBytes]
    omega
  · intro hle
    apply hcut
    cases size <;> simp only [CellSize.bytes, lineBytes] at * <;> omega

theorem column_dumpLines_iff :
    (∀ l ∈ dumpLines size a content, separatorColumn l = fullColumn size) ↔
      size.bytes ∣ content.length := by
  constructor
  · intro haligned
    by_contra hcut
    obtain ⟨i, hi, hshort⟩ := exists_cut_line hcut
    have hline : (dumpLines size a content)[i]? = some _ := getElem?_dumpLines.2 ⟨hi, rfl⟩
    have hcolumn := haligned _ (List.mem_of_getElem? hline)
    rw [separatorColumn_dumpLines hline, if_neg (not_or.2 ⟨hshort, hcut⟩)] at hcolumn
    omega
  · intro hdvd l hl
    obtain ⟨i, hi⟩ := List.mem_iff_getElem?.1 hl
    rw [separatorColumn_dumpLines hi, if_pos (.inr hdvd), Nat.add_zero]

/-- Every separator of a dump begins where that of a line of sixteen bytes does. -/
def Aligned (size : CellSize) (dump : String) : Prop :=
  ∀ l ∈ Text.lines dump.toList, separatorColumn l = fullColumn size

/-- A dump is aligned just when its last cell is not cut; otherwise its last line alone has a separator
that stands one cell too far to the right. -/
theorem aligned_iff (size : CellSize) (a : Address) (content : List UInt8) :
    (∀ b full, full.length = lineBytes → separatorColumn (line size b full) = fullColumn size) ∧
    (LabelsFit a content → ∃ dump, text size a content = .ok dump ∧
      (∀ i l, (Text.lines dump.toList)[i]? = some l →
        separatorColumn l = fullColumn size +
          if (i + 1) * lineBytes ≤ content.length ∨ size.bytes ∣ content.length then 0
          else 2 * size.bytes + 1) ∧
      (Aligned size dump ↔ size.bytes ∣ content.length)) ∧
    (¬ LabelsFit a content → text size a content = .error .addOverflow) := by
  refine ⟨fun b full hfull => separatorColumn_full hfull, ?_, text_of_not_fits⟩
  intro hfit
  obtain ⟨dump, hdump, hlines⟩ := text_of_fits size hfit
  refine ⟨dump, hdump, ?_, ?_⟩
  · intro i l hl
    exact separatorColumn_dumpLines (hlines ▸ hl)
  · rw [Aligned, hlines]
    exact column_dumpLines_iff

theorem aligned_iff_cutCell :
    ∃ dump, text .four ⟨0x1000⟩ (List.replicate 21 0x41) = .ok dump ∧ ¬ Aligned .four dump := by
  have hfit : LabelsFit ⟨0x1000⟩ (List.replicate 21 0x41) := by
    intro i hi
    have hi : i * 16 < 21 := hi
    have hplace : 0x1000 + i * 16 < wordLimit := by
      rw [wordLimit]
      omega
    exact hplace
  obtain ⟨dump, hdump, -, haligned⟩ := (aligned_iff .four ⟨0x1000⟩ (List.replicate 21 0x41)).2.1 hfit
  exact ⟨dump, hdump, fun h => absurd (haligned.1 h) (by decide)⟩

end Hexdump

end Grapnel
