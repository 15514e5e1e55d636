import Grapnel.Guest.Operation
import Grapnel.Proofs.Number.Reading

namespace Grapnel

namespace Decimal

/-- Digits in base ten. -/
def IsDecimal (digits : List Nat) : Prop := ∀ d ∈ digits, d < 10

theorem isDecimal_ofNat (n : Nat) : IsDecimal (ofNat n) := by
  intro d hd
  obtain ⟨c, hc, rfl⟩ := List.mem_map.1 hd
  have hdigit := Nat.isDigit_of_mem_toDigits (by decide) (by decide) hc
  rw [Char.isDigit, Bool.and_eq_true, decide_eq_true_eq, decide_eq_true_eq] at hdigit
  have hle : c.toNat ≤ 57 := hdigit.2
  have hzero : '0'.toNat = 48 := rfl
  omega

theorem isDecimal_significant (num den n : Nat) : IsDecimal (significant num den n).digits := by
  rw [significant]
  split <;> exact isDecimal_ofNat _

theorem IsDecimal.trimZeros {digits : List Nat} (h : IsDecimal digits) :
    IsDecimal (trimZeros digits) := fun d hd => h d <| by
  rw [Decimal.trimZeros, List.mem_reverse] at hd
  exact List.mem_reverse.1 ((List.dropWhile_sublist _).mem hd)

theorem isDigit_of_mem_text {digits : List Nat} {c : Char} (h : IsDecimal digits)
    (hc : c ∈ text digits) : c.isDigit = true := by
  obtain ⟨d, hd, rfl⟩ := List.mem_map.1 hc
  have hlt := h d hd
  interval_cases d <;> rfl

theorem mem_pointed {whole : Nat} {alternate : Bool} {digits : List Char} {c : Char}
    (hc : c ∈ pointed whole alternate digits) : c ∈ digits ∨ c = '.' := by
  rw [pointed] at hc
  split at hc
  · exact .inl (List.mem_of_mem_take hc)
  · rcases List.mem_append.1 hc with hc | hc
    · exact .inl (List.mem_of_mem_take hc)
    · exact (List.mem_cons.1 hc).symm.imp_left List.mem_of_mem_drop

end Decimal

/-- What numbers are written with. -/
def IsNumeric (c : Char) : Prop := c.isDigit = true ∨ c ∈ ['+', '-', '.', 'a', 'e', 'f', 'i', 'n']

/-- A text of the characters that numbers are written with. -/
def Numeric (s : List Char) : Prop := ∀ c ∈ s, IsNumeric c

theorem numeric_cons {c : Char} {s : List Char} (hc : IsNumeric c) (hs : Numeric s) :
    Numeric (c :: s) := List.forall_mem_cons.2 ⟨hc, hs⟩

theorem numeric_append {s t : List Char} (hs : Numeric s) (ht : Numeric t) : Numeric (s ++ t) :=
  List.forall_mem_append.2 ⟨hs, ht⟩

theorem numeric_pointed {whole : Nat} {alternate : Bool} {digits : List Nat}
    (h : Decimal.IsDecimal digits) :
    Numeric (Decimal.pointed whole alternate (Decimal.text digits)) := fun c hc => by
  rcases Decimal.mem_pointed hc with hc | rfl
  · exact .inl (Decimal.isDigit_of_mem_text h hc)
  · exact .inr (by decide)

theorem numeric_toString (n : Nat) : Numeric (toString n).toList := fun _ hc =>
  .inl (Text.isDigit_of_mem_toString hc)

theorem numeric_exponentText (e : Int) : Numeric (Decimal.exponentText e) := by
  rw [Decimal.exponentText]
  refine numeric_cons ?_ ?_
  · split <;> exact .inr (by decide)
  · split
    · exact numeric_cons (.inl rfl) (numeric_toString _)
    · exact numeric_toString _

namespace Double

theorem numeric_generalDigits (x : Double) (precision : Nat) :
    Numeric (x.generalDigits precision false) := by
  have hall {n k : Nat} {digits : List Nat} (h : Decimal.IsDecimal digits) :
      Decimal.IsDecimal ((List.replicate n 0 ++ digits).take k ++
        Decimal.trimZeros ((List.replicate n 0 ++ digits).drop k)) := by
    have hpadded : Decimal.IsDecimal (List.replicate n 0 ++ digits) :=
      List.forall_mem_append.2 ⟨fun d hd => by rw [List.eq_of_mem_replicate hd]; decide, h⟩
    exact List.forall_mem_append.2 ⟨fun d hd => hpadded d (List.mem_of_mem_take hd),
      Decimal.IsDecimal.trimZeros fun d hd => hpadded d (List.mem_of_mem_drop hd)⟩
  have hdigits (num den n : Nat) : Decimal.IsDecimal
      (if num = 0 then (⟨List.replicate n 0, 1⟩ : Decimal) else .significant num den n).digits := by
    split
    · intro d hd
      rw [List.eq_of_mem_replicate hd]
      decide
    · exact Decimal.isDecimal_significant num den n
  have hd := hdigits x.fraction.1 x.fraction.2 (max precision 1)
  simp only [generalDigits, Bool.false_eq_true, if_false]
  generalize (if _ = 0 then _ else _ : Decimal) = d at hd ⊢
  split
  · have he : IsNumeric 'e' := .inr (by decide)
    refine numeric_append (numeric_pointed ?_) (numeric_cons he (numeric_exponentText _))
    split
    · exact fun d hd => by rw [List.mem_singleton.1 hd]; decide
    · exact hd.trimZeros
  · exact numeric_pointed (hall hd)

theorem numeric_guestText (x : Double) : Numeric x.guestText.toList := by
  have hsign : Numeric (if x.signBit then "-" else "").toList := by
    split
    · exact numeric_cons (s := []) (.inr (by decide)) nofun
    · exact nofun
  have hword {s : String} (hs : s.toList.all ['a', 'f', 'i', 'n'].contains = true) :
      Numeric s.toList := fun c hc => by
    have hmem := List.contains_iff_mem.1 (List.all_eq_true.1 hs c hc)
    exact .inr (List.Sublist.mem hmem (by decide))
  simp only [guestText]
  split
  · rw [String.toList_append]
    exact numeric_append hsign (hword (by decide))
  · split
    · rw [String.toList_append]
      exact numeric_append hsign (hword (by decide))
    · rw [String.toList_append, String.toList_ofList]
      refine numeric_append hsign ?_
      split
      · exact numeric_append (numeric_generalDigits x 14)
          (numeric_cons (.inr (by decide)) (numeric_cons (s := []) (.inl rfl) nofun))
      · exact numeric_generalDigits x 14

end Double

theorem numeric_toString_int (n : Int) : Numeric (toString n).toList := by
  cases n with
  | ofNat m => exact numeric_toString m
  | negSucc m =>
    have hsign : (toString (Int.negSucc m)).toList = '-' :: (toString (m + 1)).toList :=
      String.toList_append
    rw [hsign]
    exact numeric_cons (.inr (by decide)) (numeric_toString _)

namespace Guest

theorem Numeral.exists_numeric (n : Numeral) :
    ∃ s : String, n.text = Guest.text s ∧ Numeric s.toList := by
  cases n with
  | integer n => exact ⟨_, rfl, numeric_toString_int n.toInt⟩
  | float x => exact ⟨_, rfl, x.numeric_guestText⟩

end Guest

end Grapnel
