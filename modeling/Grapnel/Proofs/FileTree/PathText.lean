import Mathlib
import Grapnel.FileTree.Basic

namespace Grapnel

namespace Path

/-- A text that can be the name of something in a directory. -/
structure IsName (s : String) : Prop where
  nonempty : s ≠ ""
  stay : s ≠ "."
  up : s ≠ ".."
  slash : '/' ∉ s.toList

instance (s : String) : Decidable (IsName s) :=
  decidable_of_iff (s ≠ "" ∧ s ≠ "." ∧ s ≠ ".." ∧ '/' ∉ s.toList)
    ⟨fun h => ⟨h.1, h.2.1, h.2.2.1, h.2.2.2⟩, fun h => ⟨h.nonempty, h.stay, h.up, h.slash⟩⟩

variable {ns : List String} {s path : String}

open String in
theorem splitOnAux_eq (c : Char) (l m r : List Char) (acc : List String) :
    splitOnAux (ofList (l ++ m ++ r)) (ofList [c]) ⟨utf8Len l⟩ ⟨utf8Len l + utf8Len m⟩ 0 acc =
      acc.reverse ++ (List.splitOnPPrepend (· == c) r m.reverse).map ofList := by
  have hback (i n : Nat) : (Pos.Raw.mk (i + n)).unoffsetBy ⟨n⟩ = ⟨i⟩ := by
    rw [Pos.Raw.unoffsetBy, Nat.add_sub_cancel]
  -- `l` is what was cut off already, `m` the part that grows.
  induction r generalizing l m acc with
  | nil =>
    have he := extract_of_valid l m []
    rw [splitOnAux]
    simp only [List.append_nil] at he ⊢
    simp [-ofList_append, atEnd_iff, he]
  | cons x r ih =>
    have hend : ¬ Pos.Raw.atEnd (ofList (l ++ m ++ x :: r)) ⟨utf8Len l + utf8Len m⟩ = true := by
      have hx := Char.utf8Size_pos x
      simp only [atEnd_iff, rawEndPos_ofList, utf8Len_append, utf8Len_cons, Pos.Raw.mk_le_mk]
      omega
    have hget := get_of_valid (l ++ m) (x :: r)
    have hnext := next_of_valid (l ++ m) x r
    have hsep : Pos.Raw.get (ofList [c]) 0 = c := get_of_valid [] [c]
    have hsepn : Pos.Raw.next (ofList [c]) 0 = ⟨0 + c.utf8Size⟩ := next_of_valid [] c []
    have hsepe : Pos.Raw.atEnd (ofList [c]) ⟨0 + c.utf8Size⟩ = true := by
      rw [atEnd_iff, rawEndPos_ofList]
      exact Pos.Raw.mk_le_mk.2 le_rfl
    rw [utf8Len_append] at hget hnext
    rw [splitOnAux, if_neg hend, hget, hsep, List.headD_cons, List.splitOnPPrepend_cons_eq_if]
    by_cases hc : (x == c) = true
    · obtain rfl : x = c := beq_iff_eq.1 hc
      have h := ih (l ++ m ++ [x]) [] (ofList m :: acc)
      rw [List.append_nil, List.append_assoc _ [x], List.singleton_append, utf8Len_append,
        utf8Len_append] at h
      rw [if_pos hc, if_pos hc, hsepn, hnext, if_pos hsepe, Nat.zero_add, hback,
        extract_of_valid l m (x :: r)]
      simp only [utf8Len_cons, utf8Len_nil, Nat.zero_add, Nat.add_zero] at h
      rw [h, List.reverse_cons, List.reverse_reverse, List.append_assoc]
      rfl
    · have h := ih l (m ++ [x]) acc
      rw [utf8Len_append, utf8Len_cons, utf8Len_nil, Nat.zero_add, ← List.append_assoc l m,
        List.append_assoc _ [x], List.singleton_append, List.reverse_append, ← Nat.add_assoc] at h
      have hstay : (Pos.Raw.mk (utf8Len l + utf8Len m)).unoffsetBy 0 = ⟨utf8Len l + utf8Len m⟩ :=
        hback _ 0
      rw [if_neg hc, if_neg hc, hstay, hnext]
      exact h

theorem splitOn_slash (path : String) :
    path.splitOn "/" = (path.toList.splitOn '/').map String.ofList := by
  have h := splitOnAux_eq '/' [] [] path.toList []
  rw [List.append_nil, List.nil_append, String.ofList_toList] at h
  rw [String.splitOn, if_neg (by decide)]
  exact h

theorem not_mem_of_mem_splitOn {c : Char} {cs part : List Char} (h : part ∈ cs.splitOn c) :
    c ∉ part := by
  rw [List.splitOn_eq_splitOnP] at h
  induction cs generalizing part with
  | nil =>
    rw [List.splitOnP_nil, List.mem_singleton] at h
    exact h ▸ List.not_mem_nil
  | cons x cs ih =>
    rw [List.splitOnP_cons_eq_if_modifyHead] at h
    obtain ⟨head, parts, hp⟩ := List.exists_cons_of_ne_nil (List.splitOnP_ne_nil (· == c) cs)
    split at h
    · rcases List.mem_cons.1 h with rfl | h
      · exact List.not_mem_nil
      · exact ih h
    · next hx =>
      rw [hp, List.modifyHead_cons] at h
      rcases List.mem_cons.1 h with rfl | h
      · have hc := ih (hp ▸ List.mem_cons_self)
        exact List.not_mem_cons_of_ne_of_not_mem (fun h => hx (beq_iff_eq.2 h.symm)) hc
      · exact ih (hp ▸ List.mem_cons_of_mem _ h)

theorem mem_names (h : s ∈ names path) : s ≠ "" ∧ s ≠ "." ∧ '/' ∉ s.toList := by
  rw [names, splitOn_slash, List.mem_filter, Bool.and_eq_true, decide_eq_true_eq,
    decide_eq_true_eq] at h
  obtain ⟨hmem, hne, hstay⟩ := h
  obtain ⟨part, hpart, rfl⟩ := List.mem_map.1 hmem
  exact ⟨hne, hstay, String.toList_ofList ▸ not_mem_of_mem_splitOn hpart⟩

theorem isName_of_mem_steps (h : .name s ∈ steps path) : IsName s := by
  have hmem : .name s ∈ (names path).map stepOf := by
    rw [steps] at h
    split at h
    · exact (List.mem_cons.1 h).resolve_left nofun
    · exact h
  obtain ⟨t, ht, hs⟩ := List.mem_map.1 hmem
  obtain ⟨hne, hstay, hslash⟩ := mem_names ht
  rw [stepOf] at hs
  split at hs
  · cases hs
  · next hup =>
    cases hs
    exact ⟨hne, hstay, hup, hslash⟩

theorem splitOn_absolute (h : ∀ s ∈ ns, IsName s) (hne : ns ≠ []) :
    (absolute ns).splitOn "/" = "" :: ns := by
  have hcut : ('/' :: ("/".intercalate ns).toList).splitOn '/' = [] :: ns.map String.toList := by
    rw [List.splitOn_cons_eq_if_modifyHead, if_pos (beq_self_eq_true '/'),
      String.toList_intercalate]
    refine congrArg _ (List.splitOn_intercalate '/' (fun cs hcs => ?_)
      (mt List.map_eq_nil_iff.1 hne))
    obtain ⟨s, hs, rfl⟩ := List.mem_map.1 hcs
    exact (h s hs).slash
  have htext : (absolute ns).toList = '/' :: ("/".intercalate ns).toList := by
    rw [absolute, if_neg (mt List.isEmpty_iff.1 hne), String.toList_append]
    rfl
  rw [splitOn_slash, htext, hcut, List.map_cons, List.map_map]
  exact congrArg _ (List.map_id'' (fun s => String.ofList_toList) ns)

theorem names_absolute (h : ∀ s ∈ ns, IsName s) : names (absolute ns) = ns := by
  by_cases hne : ns = []
  · subst hne
    rw [names, splitOn_slash]
    rfl
  · rw [names, splitOn_absolute h hne, List.filter_cons_of_neg (by decide),
      List.filter_eq_self]
    intro s hs
    rw [Bool.and_eq_true, decide_eq_true_eq, decide_eq_true_eq]
    exact ⟨(h s hs).nonempty, (h s hs).stay⟩

theorem steps_absolute (h : ∀ s ∈ ns, IsName s) :
    steps (absolute ns) = .root :: ns.map .name := by
  have hstart : (absolute ns).startsWith "/" = true := by
    rw [String.startsWith_string_iff, absolute]
    split
    · exact List.prefix_refl _
    · rw [String.toList_append]
      exact List.prefix_append ..
  rw [steps, names_absolute h, if_pos hstart]
  exact congrArg _ (List.map_congr_left fun s hs => if_neg (h s hs).up)

end Path

end Grapnel
