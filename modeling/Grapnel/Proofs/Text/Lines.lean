import Mathlib
import Grapnel.Text.Blank
import Grapnel.Text.Search

namespace Grapnel

namespace Text

variable {c : Char} {w s last : List Char} {ls : List (List Char)}

/-- A text without white space, and not empty. -/
structure IsWord (w : List Char) : Prop where
  nonempty : w ≠ []
  solid : ∀ c ∈ w, isBlank c = false

theorem fields_of_not_mem (h : c ∉ w) : fields c w = [w] := by
  induction w with
  | nil => rfl
  | cons d w ih =>
    obtain ⟨hd, hw⟩ := not_or.1 (mt List.mem_cons.2 h)
    rw [fields, if_neg (Ne.symm hd), ih hw]

theorem fields_append (h : c ∉ w) : fields c (w ++ c :: s) = w :: fields c s := by
  induction w with
  | nil => rw [List.nil_append, fields, if_pos rfl]
  | cons d w ih =>
    obtain ⟨hd, hw⟩ := not_or.1 (mt List.mem_cons.2 h)
    rw [List.cons_append, fields, if_neg (Ne.symm hd), ih hw]

/-- Lines with an end behind each. -/
def ended (ls : List (List Char)) : List Char := ls.flatMap (· ++ ['\n'])

theorem fields_ended (h : ∀ line ∈ ls, '\n' ∉ line) (hlast : '\n' ∉ last) :
    fields '\n' (ended ls ++ last) = ls ++ [last] := by
  induction ls with
  | nil => exact fields_of_not_mem hlast
  | cons line ls ih =>
    have hrest := ih fun l hl => h l (List.mem_cons_of_mem _ hl)
    have hsplit : ended (line :: ls) ++ last = line ++ '\n' :: (ended ls ++ last) := by
      simp [ended]
    rw [hsplit, fields_append (h line List.mem_cons_self), hrest]
    rfl

theorem endLines_concat :
    endLines (ls ++ [last]) = ls.map stripReturn ++ if last.isEmpty then [] else [last] := by
  induction ls with
  | nil => rfl
  | cons line ls ih =>
    have hstep : endLines (line :: (ls ++ [last])) = stripReturn line :: endLines (ls ++ [last]) := by
      rw [endLines]
      simp
    rw [List.cons_append, hstep, ih]
    rfl

theorem lines_ended (h : ∀ line ∈ ls, '\n' ∉ line) (hlast : '\n' ∉ last) :
    lines (ended ls ++ last) = ls.map stripReturn ++ if last.isEmpty then [] else [last] := by
  rw [lines, fields_ended h hlast, endLines_concat]

theorem trimStart_spaces (n : Nat) : trimStart (List.replicate n ' ' ++ s) = trimStart s := by
  induction n with
  | zero => rfl
  | succ n ih => exact ih

theorem trimStart_solid (h : isBlank c = false) : trimStart (c :: s) = c :: s := by
  rw [trimStart, List.dropWhile_cons_of_neg (by simp [h])]

theorem IsWord.trimStart (h : IsWord w) : trimStart (w ++ s) = w ++ s := by
  obtain ⟨c, cs, rfl⟩ := List.exists_cons_of_ne_nil h.nonempty
  exact trimStart_solid (h.solid c List.mem_cons_self)

theorem IsWord.not_mem (h : IsWord w) (hc : isBlank c = true) : c ∉ w := by
  intro hmem
  cases (h.solid c hmem).symm.trans hc

theorem words_blank (hc : isBlank c = true) : words (c :: s) = words s := by
  rw [words, wordsFrom, if_pos hc, if_neg (by decide), words]

theorem words_blanks (n : Nat) : words (List.replicate n ' ') = [] := by
  induction n with
  | zero => rfl
  | succ n ih => rwa [List.replicate_succ, words_blank rfl]

theorem wordsFrom_solid (hw : ∀ d ∈ w, isBlank d = false) (hc : isBlank c = true) :
    wordsFrom true (w ++ c :: s) = w :: words s := by
  induction w with
  | nil => rw [List.nil_append, wordsFrom, if_pos hc, if_pos rfl, words]
  | cons d w ih =>
    obtain ⟨hd, hrest⟩ := List.forall_mem_cons.1 hw
    rw [List.cons_append, wordsFrom, hd, if_neg (by decide), ih hrest]
    rfl

theorem IsWord.words (h : IsWord w) (hc : isBlank c = true) : words (w ++ c :: s) = w :: words s := by
  obtain ⟨d, ds, rfl⟩ := List.exists_cons_of_ne_nil h.nonempty
  obtain ⟨hd, hrest⟩ := List.forall_mem_cons.1 h.solid
  rw [List.cons_append, Text.words, wordsFrom, hd, if_neg (by decide), wordsFrom_solid hrest hc]
  rfl

theorem words_flatMap {ws : List (List Char)} (h : ∀ w ∈ ws, IsWord w) :
    words (ws.flatMap (' ' :: ·) ++ ' ' :: s) = ws ++ words s := by
  induction ws with
  | nil => exact words_blank rfl
  | cons w ws ih =>
    obtain ⟨hw, hws⟩ := List.forall_mem_cons.1 h
    have hblank : ∃ t, ws.flatMap (' ' :: ·) ++ ' ' :: s = ' ' :: t := by
      cases ws with
      | nil => exact ⟨_, rfl⟩
      | cons w' ws => exact ⟨_, rfl⟩
    obtain ⟨t, ht⟩ := hblank
    rw [List.flatMap_cons, List.cons_append, List.cons_append, words_blank rfl, List.append_assoc, ht,
      hw.words rfl, ← words_blank (c := ' ') (s := t) rfl, ← ht, ih hws]
    rfl

theorem trim_isEmpty (s : List Char) : (trim s).isEmpty = s.all isBlank := by
  rw [Bool.eq_iff_iff, List.isEmpty_iff, trim, trimEnd, List.reverse_eq_nil_iff,
    List.dropWhile_eq_nil_iff, List.all_eq_true]
  simp only [List.mem_reverse]
  constructor
  · intro h c hc
    rw [← List.takeWhile_append_dropWhile (p := isBlank) (l := s)] at hc
    rcases List.mem_append.1 hc with hc | hc
    · exact List.mem_takeWhile_imp hc
    · exact h c hc
  · intro h c hc
    exact h c ((List.dropWhile_suffix _).subset hc)

end Text

end Grapnel
