import Grapnel.Patch.CodeSpace
import Grapnel.Proofs.Memory.Place

namespace Grapnel

namespace Page

theorem size_eq : size = 4096 := rfl

/-- The number of the page with a place. -/
def number (place : Nat) : Nat := place / size

/-- The number of the page with the last byte of a range. -/
def last (a : Address) (length : Nat) : Nat := number (a.toNat + (max length 1 - 1))

/-- The pages that a range touches, in ascending order. -/
def numbers (a : Address) (length : Nat) : List Nat :=
  List.range' (number a.toNat) (last a length + 1 - number a.toNat)

/-- The address that a page starts at. -/
def start (n : Nat) : Address := .ofNat (n * size)

theorem and_shiftLeft (n m s : Nat) : n &&& (m <<< s) = ((n >>> s) &&& m) <<< s := by
  apply Nat.eq_of_testBit_eq
  intro i
  simp only [Nat.testBit_and, Nat.testBit_shiftLeft, Nat.testBit_shiftRight]
  by_cases hi : s ≤ i
  · simp [hi, Nat.add_sub_cancel' hi]
  · simp [hi]

theorem toNat_base (a : Address) : (base a).toNat = number a.toNat * size := by
  have hmask : mask.toNat = (2 ^ 52 - 1) <<< 12 := by decide
  have hlt : a.toNat >>> 12 < 2 ^ 52 := by
    rw [Nat.shiftRight_eq_div_pow]
    exact Nat.div_lt_of_lt_mul a.word.toNat_lt
  rw [base, Address.toNat, UInt64.toNat_and, hmask, and_shiftLeft, Nat.and_two_pow_sub_one_eq_mod]
  change ((a.toNat >>> 12) % 2 ^ 52) <<< 12 = _
  rw [Nat.mod_eq_of_lt hlt, Nat.shiftRight_eq_div_pow, Nat.shiftLeft_eq]
  rfl

theorem span_ok {a start stop : Address} {length : Nat} (h : span a length = .ok (start, stop)) :
    start.toNat = number a.toNat * size ∧ stop.toNat = (last a length + 1) * size := by
  rw [span] at h
  cases hlast : a.add (max length 1 - 1) with
  | error trap =>
    rw [hlast] at h
    cases h
  | ok b =>
    rw [hlast] at h
    dsimp only [bind, Except.bind] at h
    cases hstop : (base b).add size with
    | error trap =>
      rw [hstop] at h
      cases h
    | ok c =>
      rw [hstop] at h
      cases h
      refine ⟨toNat_base a, ?_⟩
      rw [Address.add_ok hstop, toNat_base, Address.add_ok hlast, last, Nat.succ_mul]

theorem mem_numbers {a : Address} {length n : Nat} :
    n ∈ numbers a length ↔ number a.toNat ≤ n ∧ n ≤ last a length := by
  rw [numbers, List.mem_range'_1]
  omega

theorem number_mem_numbers {a : Address} {length k : Nat} (hk : k < length) :
    number (a.toNat + k) ∈ numbers a length := by
  rw [mem_numbers]
  constructor
  · exact Nat.div_le_div_right (Nat.le_add_right _ _)
  · apply Nat.div_le_div_right
    omega

end Page

theorem Region.contains_iff {r : Region} {a : Address} :
    r.contains a = true ↔ r.start.toNat ≤ a.toNat ∧ a.toNat < r.stop.toNat := by
  rw [Region.contains, Bool.and_eq_true, decide_eq_true_iff, decide_eq_true_iff, Address.lt_iff]
  exact and_congr_left' UInt64.le_iff_toNat_le

theorem accessOfPages_ok {regions : List Region} {page stop : Address}
    {pages : List (Address × Access)} {s e : Nat} (h : accessOfPages regions page stop = .ok pages)
    (hs : page.toNat = s * Page.size) (he : stop.toNat = e * Page.size) :
    pages = (List.range' s (e - s)).map fun n =>
      (Page.start n, accessOfPage regions (Page.start n)) := by
  fun_induction accessOfPages regions page stop generalizing pages s with
  | case1 page hlt hfit ih =>
    rw [Address.lt_iff, hs, he] at hlt
    have hcount : e - s = (e - (s + 1)) + 1 := by
      have := Nat.lt_of_mul_lt_mul_right hlt
      omega
    have hpage : page = Page.start s := by
      rw [Page.start, ← hs, Address.ofNat_toNat]
    cases hrest : accessOfPages regions (.ofNat (page.toNat + Page.size)) stop with
    | error trap =>
      rw [hrest] at h
      cases h
    | ok rest =>
      rw [hrest] at h
      cases h
      have hnext : (Address.ofNat (page.toNat + Page.size)).toNat = (s + 1) * Page.size := by
        rw [Address.toNat_ofNat hfit, hs, Nat.succ_mul]
      rw [hcount, List.range'_succ, List.map_cons, ih hrest hnext, hpage]
  | case2 => cases h
  | case3 page hlt =>
    cases h
    rw [Address.lt_iff, hs, he, Nat.not_lt] at hlt
    have hcount : e - s = 0 := Nat.sub_eq_zero_of_le (Nat.le_of_mul_le_mul_right hlt (by decide))
    rw [hcount]
    rfl

theorem CodeSpace.protections_ok {W : Type} {space : CodeSpace W} {a : Address} {length : Nat}
    {w : W} {pages : List (Address × Access)} (h : space.protections a length w = .ok pages) :
    (∃ start stop, Page.span a length = .ok (start, stop)) ∧
      pages = (Page.numbers a length).map fun n =>
        (Page.start n, accessOfPage (space.regions w) (Page.start n)) := by
  rw [CodeSpace.protections] at h
  cases hspan : Page.span a length with
  | error trap =>
    rw [hspan] at h
    cases h
  | ok range =>
    obtain ⟨start, stop⟩ := range
    rw [hspan] at h
    obtain ⟨hs, he⟩ := Page.span_ok hspan
    exact ⟨⟨start, stop, rfl⟩, accessOfPages_ok h hs he⟩

end Grapnel
