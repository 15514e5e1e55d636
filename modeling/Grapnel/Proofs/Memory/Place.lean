import Grapnel.Memory.Address
import Mathlib

namespace Grapnel

namespace Address

variable {a b : Address} {m n : Nat}

theorem toNat_lt (a : Address) : a.toNat < wordLimit := a.word.toNat_lt

theorem toNat_ofNat (h : n < wordLimit) : (ofNat n).toNat = n := Nat.mod_eq_of_lt h

theorem ofNat_toNat (a : Address) : ofNat a.toNat = a := by
  rw [ofNat, toNat, UInt64.ofNat_toNat]

theorem le_iff : a ≤ b ↔ a.toNat ≤ b.toNat := UInt64.le_iff_toNat_le

theorem lt_iff : a < b ↔ a.toNat < b.toNat := UInt64.lt_iff_toNat_lt

/-- The address some bytes above another one. -/
def above (a : Address) (n : Nat) : Address := .ofNat (a.toNat + n)

theorem toNat_above (h : a.toNat + n < wordLimit) : (a.above n).toNat = a.toNat + n :=
  toNat_ofNat h

theorem add_eq_above (h : a.toNat + n < wordLimit) : a.add n = .ok (a.above n) := if_pos h

theorem add_eq_ok (h : a.add n = .ok b) : b = a.above n ∧ a.toNat + n < wordLimit := by
  rw [add] at h
  split at h
  · next hfit =>
    cases h
    exact ⟨rfl, hfit⟩
  · cases h

theorem add_ok (h : a.add n = .ok b) : b.toNat = a.toNat + n := by
  obtain ⟨rfl, hfit⟩ := add_eq_ok h
  exact toNat_above hfit

theorem above_above (h : a.toNat + m < wordLimit) : (a.above m).above n = a.above (m + n) := by
  rw [above, toNat_above h, Nat.add_assoc]
  rfl

theorem above_lt_above (h : a.toNat + n < wordLimit) (hlt : m < n) : a.above m < a.above n := by
  rw [lt_iff, toNat_above h, toNat_above (by omega)]
  omega

end Address

end Grapnel
