import Grapnel.Machine.HostAction
import Grapnel.Proofs.Number.Notation
import Grapnel.Proofs.Text.Encoding
import Grapnel.Script.SourceTag

namespace Grapnel

open Guest

theorem Guest.toList_text (s : String) : (text s).toList = Utf8.encode s.toList :=
  Utf8.toList_toUTF8 s

namespace SourceTag

variable {source : String} {rest : List Char} {tag : SourceTag}

theorem not_mem_label (tag : SourceTag) : ']' ∉ tag.label.toList := by
  cases tag <;> decide

theorem find?_label (tag : SourceTag) :
    all.find? (fun t => t.label.toList = tag.label.toList) = some tag := by
  cases tag <;> decide

theorem afterOpening?_append (rest : List Char) :
    afterOpening? (opening.toList ++ rest) = some rest := by
  rw [afterOpening?, if_pos (List.isPrefixOf_iff_prefix.2 (List.prefix_append _ _)), List.drop_left]

theorem afterOpening?_eq_none (h : ¬ opening.toList <+: source.toList) :
    afterOpening? source.toList = none :=
  if_neg (mt List.isPrefixOf_iff_prefix.1 h)

/-- Only the label up to the first bracket counts, and no label has one. -/
theorem classify?_tagged (h : source.toList = opening.toList ++ (tag.label.toList ++ ']' :: rest)) :
    classify? source = some tag := by
  have hbracket : (tag.label.toList ++ ']' :: rest).contains ']' = true :=
    List.contains_iff_mem.2 (List.mem_append_right _ List.mem_cons_self)
  have hlabel : (tag.label.toList ++ ']' :: rest).takeWhile (· ≠ ']') = tag.label.toList := by
    rw [List.takeWhile_append_of_pos fun c hc => decide_eq_true (ne_of_mem_of_not_mem hc
      (not_mem_label tag)), List.takeWhile_cons_of_neg (by decide), List.append_nil]
  rw [classify?, h, afterOpening?_append]
  simp only [hbracket, if_true, hlabel, find?_label]

theorem classify?_namedChunk (tag : SourceTag) (name : String) :
    classify? (tag.namedChunk name) = some tag := by
  have htext : (tag.namedChunk name).toList =
      opening.toList ++ (tag.label.toList ++ ']' :: ' ' :: name.toList) := by
    rw [namedChunk, chunkName]
    simp only [String.toList_append, List.append_assoc]
    rfl
  exact classify?_tagged htext

theorem classify?_chunkName (tag : SourceTag) : classify? tag.chunkName = some tag := by
  cases tag <;> decide

theorem classify?_eq_none (h : ¬ opening.toList <+: source.toList) : classify? source = none := by
  rw [classify?, afterOpening?_eq_none h]

/-- A name as only the engine gives them. -/
def Reserved (name : Text) : Prop := (text opening).toList <+: name.toList

theorem toList_untilNul (name : Text) : (untilNul name).toList = name.toList.takeWhile (· ≠ 0) :=
  Utf8.toList_eq _

theorem opening_prefix_of_hostText {name : Text}
    (h : opening.toList <+: (HostAction.hostText name).toList) : Reserved name := by
  have hdecoded : opening.toList <+: Utf8.lossyChars (untilNul name).toList := by
    rwa [HostAction.hostText, Utf8.lossy, String.toList_ofList] at h
  have hbytes := Utf8.encode_prefix_of_lossyChars (by decide) hdecoded
  rw [toList_untilNul] at hbytes
  rw [Reserved, toList_text]
  exact hbytes.trans (List.takeWhile_prefix _)

/-- However damaged or cut, a name that is not reserved carries no tag. -/
theorem classify?_hostText_eq_none {name : Text} (h : ¬ Reserved name) :
    classify? (HostAction.hostText name) = none :=
  classify?_eq_none (mt opening_prefix_of_hostText h)

theorem Reserved.of_untilNul {name : Text} (h : Reserved (untilNul name)) : Reserved name := by
  rw [Reserved, toList_untilNul] at h
  exact h.trans (List.takeWhile_prefix _)

theorem exists_equals_of_reserved {name : Text} (h : Reserved name) :
    ∃ rest, name.toList = 61 :: 91 :: rest := by
  obtain ⟨rest, hrest⟩ := h
  have hopening : Utf8.encode opening.toList = 61 :: 91 :: Utf8.encode "tether:".toList := rfl
  rw [toList_text, hopening] at hrest
  exact ⟨_, hrest.symm⟩

theorem not_reserved_text {s : String} (hs : Numeric s.toList) : ¬ Reserved (text s) := by
  intro h
  obtain ⟨rest, hrest⟩ := exists_equals_of_reserved h
  have hbytes : Utf8.encode s.toList = [] ++ 61 :: 91 :: rest := (Utf8.toList_toUTF8 s).symm.trans hrest
  obtain ⟨-, cs, hback⟩ := Utf8.encode_split hbytes (by decide)
  have hchars : s.toList = '=' :: cs := by
    apply Utf8.encode_injective
    rw [hbytes, Utf8.encode_cons, ← hback]
    rfl
  have hequals : IsNumeric '=' := hs '=' (hchars ▸ List.mem_cons_self)
  exact absurd hequals (by unfold IsNumeric; decide)

theorem hostText_text {name : String} (h : 0 ∉ (text name).toList) :
    HostAction.hostText (text name) = name := by
  have hwhole : (text name).toList.takeWhile (· ≠ 0) = (text name).toList :=
    List.takeWhile_eq_self_iff.2 fun b hb => decide_eq_true (ne_of_mem_of_not_mem hb h)
  rw [HostAction.hostText, toList_untilNul, hwhole]
  exact Utf8.lossy_toUTF8 name

end SourceTag

end Grapnel
