import Grapnel.Text.Search
import Mathlib

namespace Grapnel

namespace Text

variable {needle front s w : List Char} {c : Char}

theorem hasInfix_iff {needle s : List Char} : hasInfix needle s = true ↔ needle <:+: s := by
  rw [hasInfix]
  induction s with
  | nil => simp [before?, List.infix_nil]
  | cons c s ih =>
    rw [before?, List.infix_cons_iff, ← List.isPrefixOf_iff_prefix]
    split
    · next h => simp [h]
    · next h => simpa [h] using ih

theorem cutAt_nil (needle : List Char) : cutAt needle [] = [] := by
  rw [cutAt, before?]
  split <;> rfl

theorem cutAt_cons (needle : List Char) (c : Char) (s : List Char) :
    cutAt needle (c :: s) = if needle <+: c :: s then [] else c :: cutAt needle s := by
  rw [cutAt, before?]
  simp only [List.isPrefixOf_iff_prefix]
  split
  · rfl
  · rw [cutAt]
    cases before? needle s <;> rfl

theorem isPrefix_cutAt (needle s : List Char) : cutAt needle s <+: s := by
  induction s with
  | nil => rw [cutAt_nil]
  | cons c s ih =>
    rw [cutAt_cons]
    split
    · exact List.nil_prefix
    · exact (List.prefix_cons_inj c).2 ih

theorem not_infix_cutAt (h : needle ≠ []) (s : List Char) : ¬ needle <:+: cutAt needle s := by
  induction s with
  | nil => rwa [cutAt_nil, List.infix_nil]
  | cons c s ih =>
    rw [cutAt_cons]
    split
    · rwa [List.infix_nil]
    · next hnot =>
      rw [List.infix_cons_iff, not_or]
      -- what begins in the part that is kept would begin in the text
      exact ⟨fun hp => hnot (hp.trans ((List.prefix_cons_inj c).2 (isPrefix_cutAt needle s))), ih⟩

theorem ended_prefix_iff (hfront : c ∉ front) (hw : c ∉ w) :
    front ++ [c] <+: w ++ c :: s ↔ front = w := by
  induction front generalizing w with
  | nil =>
    cases w with
    | nil => simp
    | cons d w =>
      have hd : c ≠ d := fun hd => hw (hd ▸ List.mem_cons_self)
      simp [hd]
  | cons d front ih =>
    have hfront' : c ∉ front := fun h => hfront (List.mem_cons_of_mem _ h)
    cases w with
    | nil =>
      have hd : d ≠ c := fun hd => hfront (hd ▸ List.mem_cons_self)
      simp [hd]
    | cons d' w =>
      have hw' : c ∉ w := fun h => hw (List.mem_cons_of_mem _ h)
      rw [List.cons_append, List.cons_append, List.cons_prefix_cons, ih hfront' hw', List.cons.injEq]

/-- A mark that ends in a character is first found where a text ends in the mark's front, or only
behind the first such character. -/
theorem cutAt_ended (hne : front ≠ []) (hfront : c ∉ front) (hw : c ∉ w) :
    cutAt (front ++ [c]) (w ++ c :: s) =
      if front <:+ w then w.take (w.length - front.length)
      else w ++ c :: cutAt (front ++ [c]) s := by
  induction w with
  | nil =>
    have hhere : ¬ front ++ [c] <+: c :: s := mt (ended_prefix_iff hfront hw).1 hne
    have hnil : ¬ front <:+ [] := mt List.suffix_nil.1 hne
    rw [List.nil_append, cutAt_cons, if_neg hhere, if_neg hnil, List.nil_append]
  | cons d w ih =>
    have hw' : c ∉ w := fun h => hw (List.mem_cons_of_mem _ h)
    have hstart : front ++ [c] <+: d :: (w ++ c :: s) ↔ front = d :: w := ended_prefix_iff hfront hw
    rw [List.cons_append, cutAt_cons, ih hw']
    by_cases hhere : front = d :: w
    · rw [if_pos (hstart.2 hhere), if_pos (List.suffix_cons_iff.2 (.inl hhere)), hhere, Nat.sub_self,
        List.take_zero]
    · rw [if_neg (mt hstart.1 hhere)]
      by_cases hlater : front <:+ w
      · rw [if_pos hlater, if_pos (List.suffix_cons_iff.2 (.inr hlater)), List.length_cons,
          Nat.succ_sub hlater.length_le, List.take_succ_cons]
      · rw [if_neg hlater, if_neg (mt List.suffix_cons_iff.1 (not_or.2 ⟨hhere, hlater⟩)),
          List.cons_append]

theorem suffix_append_iff {d : Char} {ds v : List Char} (hd : d ∉ w) :
    d :: ds <:+ w ++ v ↔ d :: ds <:+ v := by
  refine ⟨fun h => ?_, fun h => h.trans (List.suffix_append w v)⟩
  obtain ⟨t, ht⟩ := h
  rcases List.append_eq_append_iff.1 ht with ⟨u, hu, hv⟩ | ⟨u, hu, hv⟩
  · cases u with
    | nil => exact hv ▸ List.suffix_refl _
    | cons x u =>
      cases hv
      exact absurd (hu ▸ List.mem_append_right t List.mem_cons_self) hd
  · exact hv ▸ List.suffix_append u _

end Text

end Grapnel
