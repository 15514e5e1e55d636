import Mathlib
import Grapnel.Number.LittleEndian
import Grapnel.Text.Search
import Grapnel.Proofs.Memory.PatternText

namespace Grapnel

namespace Hexadecimal

variable {c : Char} {cs ds : List Char} {n acc limit width : Nat}

theorem isDigit_digitChar (h : n < 16) : IsDigit n.digitChar n := ⟨h, .inl rfl⟩

theorem IsDigit.not_blank (h : IsDigit c n) : Text.isBlank c = false := by
  obtain ⟨hn, rfl | rfl⟩ := h
  · interval_cases n <;> rfl
  · interval_cases n <;> rfl

theorem IsDigit.ne_dash (h : IsDigit c n) : c ≠ '-' := by
  obtain ⟨hn, rfl | rfl⟩ := h
  · interval_cases n <;> decide
  · interval_cases n <;> decide

theorem ofDigits?_append :
    ofDigits? (cs ++ ds) acc = (ofDigits? cs acc).bind (ofDigits? ds) := by
  induction cs generalizing acc with
  | nil => rfl
  | cons c cs ih =>
    rw [List.cons_append, ofDigits?, ofDigits?, Option.bind_assoc]
    exact Option.bind_congr fun d _ => ih

theorem ofDigits?_zeros (k : Nat) : ofDigits? (List.replicate k '0' ++ cs) 0 = ofDigits? cs 0 := by
  induction k with
  | zero => rfl
  | succ k ih => exact ih

theorem ofDigits?_digits (n : Nat) : ofDigits? (digits n) 0 = some n := by
  induction n using Nat.strongRecOn with
  | ind n ih =>
    rw [digits, Nat.toDigits_eq_if (by decide)]
    split
    · next h =>
      rw [ofDigits?_cons]
      exact ⟨n, isDigit_digitChar h, by rw [ofDigits?, Nat.mul_zero, Nat.zero_add]⟩
    · next h =>
      have hlow : n % 16 < 16 := Nat.mod_lt n (by decide)
      have hhigh : ofDigits? (Nat.toDigits 16 (n / 16)) 0 = some (n / 16) := ih _ (by omega)
      rw [ofDigits?_append, hhigh, Option.bind_some, ofDigits?_cons]
      exact ⟨n % 16, isDigit_digitChar hlow, by rw [ofDigits?, Nat.div_add_mod]⟩

theorem isDigit_of_mem_digits (h : c ∈ digits n) : ∃ d, IsDigit c d := by
  induction n using Nat.strongRecOn with
  | ind n ih =>
    rw [digits, Nat.toDigits_eq_if (by decide)] at h
    split at h
    · next hn => exact ⟨n, List.mem_singleton.1 h ▸ isDigit_digitChar hn⟩
    · rcases List.mem_append.1 h with h | h
      · exact ih _ (by omega) h
      · exact ⟨n % 16, List.mem_singleton.1 h ▸ isDigit_digitChar (Nat.mod_lt n (by decide))⟩

theorem isDigit_of_mem_padded (h : c ∈ padded width n) : ∃ d, IsDigit c d := by
  rcases List.mem_append.1 h with h | h
  · exact ⟨0, (List.eq_of_mem_replicate h) ▸ isDigit_digitChar (by decide)⟩
  · exact isDigit_of_mem_digits h

theorem padded_ne_nil : padded width n ≠ [] := by
  intro h
  exact Nat.toDigits_ne_nil (List.append_eq_nil_iff.1 h).2

/-- Zeros in front do not count. -/
theorem read?_padded (width : Nat) (h : n < limit) : read? limit (padded width n) = some n := by
  have hne : padded width n ≠ [] := padded_ne_nil
  obtain ⟨c, cs, hc⟩ := List.exists_cons_of_ne_nil hne
  obtain ⟨d, hd⟩ := isDigit_of_mem_padded (hc ▸ List.mem_cons_self : c ∈ padded width n)
  rw [hc, read?_unsigned hd.ne_sign.1, ← hc, padded, ofDigits?_zeros, ofDigits?_digits,
    Option.bind_some, if_pos h]

theorem padded_byte (h : n < 256) :
    padded 2 n = [(n / 16).digitChar, (n % 16).digitChar] := by
  have hdigits : digits n =
      if n < 16 then [n.digitChar] else Nat.toDigits 16 (n / 16) ++ [(n % 16).digitChar] :=
    Nat.toDigits_eq_if (by decide)
  rw [padded, hdigits]
  split
  · next hn =>
    rw [Nat.div_eq_of_lt hn, Nat.mod_eq_of_lt hn]
    rfl
  · rw [Nat.toDigits_of_lt_base (by omega : n / 16 < 16)]
    rfl

theorem length_padded (hwidth : 0 < width) (h : n < 16 ^ width) : (padded width n).length = width := by
  have hle := (Nat.length_toDigits_le_iff (by decide) hwidth).2 h
  rw [padded, List.length_append, List.length_replicate]
  exact Nat.sub_add_cancel hle

theorem IsDigit.toUpper (h : IsDigit c n) : IsDigit c.toUpper n := by
  obtain ⟨hn, rfl | rfl⟩ := h
  · exact ⟨hn, .inr rfl⟩
  · interval_cases n <;> exact ⟨by decide, .inr rfl⟩

theorem isDigit_of_mem_upper (h : c ∈ upper (padded width n)) : ∃ d, IsDigit c d := by
  obtain ⟨c', hc', rfl⟩ := List.mem_map.1 h
  obtain ⟨d, hd⟩ := isDigit_of_mem_padded hc'
  exact ⟨d, hd.toUpper⟩

theorem ofDigits?_upper (h : ∀ c ∈ cs, ∃ d, IsDigit c d) :
    ofDigits? (upper cs) acc = ofDigits? cs acc := by
  induction cs generalizing acc with
  | nil => rfl
  | cons c cs ih =>
    obtain ⟨⟨d, hd⟩, hcs⟩ := List.forall_mem_cons.1 h
    have hvalue : value? c.toUpper = value? c := by
      rw [value?_iff.2 hd, value?_iff.2 hd.toUpper]
    rw [upper, List.map_cons, ofDigits?, ofDigits?, hvalue]
    exact Option.bind_congr fun d _ => ih hcs

theorem ofDigits?_padded : ofDigits? (upper (padded width n)) 0 = some n := by
  rw [ofDigits?_upper fun c hc => isDigit_of_mem_padded hc, padded, ofDigits?_zeros, ofDigits?_digits]

end Hexadecimal

namespace LittleEndian

variable {bs : List UInt8} {n : Nat}

theorem ofBytes_lt (bs : List UInt8) : ofBytes bs < 256 ^ bs.length := by
  induction bs with
  | nil => exact Nat.one_pos
  | cons b bs ih =>
    have hb := b.toNat_lt
    rw [ofBytes, List.length_cons, Nat.pow_succ]
    omega

theorem bytes_zero (n : Nat) : bytes n 0 = List.replicate n 0 := by
  induction n with
  | zero => rfl
  | succ n ih =>
    rw [bytes, Nat.zero_div, ih]
    rfl

/-- The bytes of a number are those it was made of, with zeros behind. -/
theorem bytes_ofBytes (h : bs.length ≤ n) :
    bytes n (ofBytes bs) = bs ++ List.replicate (n - bs.length) 0 := by
  induction bs generalizing n with
  | nil => exact bytes_zero n
  | cons b bs ih =>
    cases n with
    | zero => cases h
    | succ n =>
      have hb := b.toNat_lt
      have hlow : (b.toNat + 256 * ofBytes bs) % 256 = b.toNat := by omega
      have hhigh : (b.toNat + 256 * ofBytes bs) / 256 = ofBytes bs := by omega
      rw [ofBytes, bytes, hlow, hhigh, UInt8.ofNat_toNat, ih (Nat.le_of_succ_le_succ h),
        List.length_cons, Nat.add_sub_add_right]
      rfl

end LittleEndian

namespace Text

theorem toList_toString (n : Nat) : (toString n).toList = Nat.toDigits 10 n := by
  rw [Nat.toString_eq_repr, Nat.toList_repr]

theorem isDigit_of_mem_toString {c : Char} {n : Nat} (h : c ∈ (toString n).toList) :
    c.isDigit = true := by
  rw [toList_toString] at h
  exact Nat.isDigit_of_mem_toDigits (by decide) (by decide) h

theorem toString_ne_nil (n : Nat) : (toString n).toList ≠ [] :=
  toList_toString n ▸ Nat.toDigits_ne_nil

theorem all_isDigit_toString (n : Nat) : (toString n).toList.all Char.isDigit = true :=
  List.all_eq_true.2 fun _ hc => isDigit_of_mem_toString hc

theorem decimalValue_toString (n : Nat) : decimalValue (toString n).toList = n := by
  rw [toList_toString]
  exact Nat.ofDigitChars_ten_toDigits

theorem readDecimal?_toString (limit n : Nat) :
    readDecimal? limit (toString n).toList = if n < limit then some n else none := by
  have hall := all_isDigit_toString n
  rw [readDecimal?]
  · simp only [List.isEmpty_eq_false_iff.2 (toString_ne_nil n), hall, decimalValue_toString]
    rfl
  · intro ds hds
    rw [hds] at hall
    cases hall

end Text

end Grapnel
