import Grapnel.Proofs.Patch.Page

namespace Grapnel

namespace Page

variable {a b : Address} {length s e n : Nat}

/-- Whole pages from one place up to another hold every byte of a range. A range has at least one
byte. -/
structure Covers (a : Address) (length s e : Nat) : Prop where
  start : size ∣ s
  stop : size ∣ e
  below : s ≤ a.toNat
  above : a.toNat + max length 1 ≤ e

theorem covers_numbers : Covers a length (number a.toNat * size) ((last a length + 1) * size) where
  start := Nat.dvd_mul_left _ _
  stop := Nat.dvd_mul_left _ _
  below := Nat.div_mul_le_self _ _
  above := by
    have hup := Nat.lt_mul_div_succ (a.toNat + (max length 1 - 1)) (by decide : 0 < size)
    rw [last, number, Nat.mul_comm]
    omega

/-- Whole pages that hold a range have all the pages that it touches. -/
theorem Covers.least (h : Covers a length s e) :
    s ≤ number a.toNat * size ∧ (last a length + 1) * size ≤ e := by
  obtain ⟨k, rfl⟩ := h.start
  obtain ⟨l, rfl⟩ := h.stop
  have hsize : 0 < size := by decide
  have hlast : a.toNat + (max length 1 - 1) < size * l := by
    have habove := h.above
    omega
  rw [Nat.mul_comm size k, Nat.mul_comm size l]
  exact ⟨Nat.mul_le_mul_right _ ((Nat.le_div_iff_mul_le hsize).2 (Nat.mul_comm size k ▸ h.below)),
    Nat.mul_le_mul_right _ (Nat.div_lt_of_lt_mul hlast)⟩

theorem exists_span (h : a.toNat + (max length 1 - 1) < wordLimit - size) :
    ∃ start stop, span a length = .ok (start, stop) := by
  have hlast : a.toNat + (max length 1 - 1) < wordLimit := by omega
  have hbase : (base (a.above (max length 1 - 1))).toNat + size < wordLimit := by
    rw [toNat_base, Address.toNat_above hlast]
    have hdown := Nat.div_mul_le_self (a.toNat + (max length 1 - 1)) size
    rw [number]
    omega
  refine ⟨base a, (base (a.above (max length 1 - 1))).above size, ?_⟩
  rw [span, Address.add_eq_above hlast]
  dsimp only [bind, Except.bind]
  rw [Address.add_eq_above hbase]
  rfl

theorem toNat_start (h : n * size < wordLimit) : (start n).toNat = n * size :=
  Address.toNat_ofNat h

end Page

namespace Region

variable {regions : List Region} {r : Region} {a : Address}

/-- A page belongs to the region as a whole, or not at all. -/
structure Aligned (r : Region) : Prop where
  start : Page.size ∣ r.start.toNat
  stop : Page.size ∣ r.stop.toNat

/-- The access of the first region with a byte; what is not mapped counts as code. -/
def accessOfByte (regions : List Region) (a : Address) : Access :=
  ((regions.find? (·.contains a)).map (·.access)).getD .readExecute

theorem Aligned.contains_base (h : r.Aligned) : r.contains (Page.base a) = r.contains a := by
  obtain ⟨k, hk⟩ := h.start
  obtain ⟨l, hl⟩ := h.stop
  rw [Bool.eq_iff_iff, contains_iff, contains_iff, Page.toNat_base, hk, hl, Page.number]
  have hdown := Nat.div_mul_le_self a.toNat Page.size
  have hup := Nat.lt_mul_div_succ a.toNat (by decide : 0 < Page.size)
  simp only [Page.size_eq] at *
  omega

theorem accessOfPage_base (h : ∀ r ∈ regions, r.Aligned) :
    accessOfPage regions (Page.base a) = accessOfByte regions a := by
  have hfind : regions.find? (·.contains (Page.base a)) = regions.find? (·.contains a) :=
    List.find?_congr fun r hr => (h r hr).contains_base
  rw [accessOfPage, accessOfByte, hfind]
  cases regions.find? (·.contains a) <;> rfl

end Region

/-- Up to the end of a page, the access of every page is recorded. -/
theorem exists_accessOfPages {regions : List Region} {page stop : Address} {s e : Nat}
    (hs : page.toNat = s * Page.size) (he : stop.toNat = e * Page.size) :
    ∃ pages, accessOfPages regions page stop = .ok pages := by
  fun_induction accessOfPages regions page stop generalizing s with
  | case1 page hlt hfit ih =>
    have hnext : (Address.ofNat (page.toNat + Page.size)).toNat = (s + 1) * Page.size := by
      rw [Address.toNat_ofNat hfit, hs, Nat.succ_mul]
    obtain ⟨pages, hpages⟩ := ih hnext
    exact ⟨(page, accessOfPage regions page) :: pages, by rw [hpages]; rfl⟩
  | case2 page hlt hfit =>
    -- the next page begins at the end or before it
    have hstop := stop.toNat_lt
    rw [Address.lt_iff, hs, he] at hlt
    have hle := Nat.mul_le_mul_right Page.size (Nat.lt_of_mul_lt_mul_right hlt)
    rw [Nat.succ_mul] at hle
    omega
  | case3 => exact ⟨[], rfl⟩

/-- What is recorded of the pages from one address up to another: every page once, in ascending
order, and with every byte of a range the access that the regions tell for that byte. -/
structure Recorded (regions : List Region) (a : Address) (length : Nat) (start stop : Address)
    (pages : List (Address × Access)) : Prop where
  ascending : (pages.map (·.1)).Pairwise (· < ·)
  exactly : ∀ page, page ∈ pages.map (·.1) ↔
    Page.size ∣ page.toNat ∧ start.toNat ≤ page.toNat ∧ page.toNat < stop.toNat
  access : ∀ k < max length 1, ∀ r, (Page.base (a.above k), r) ∈ pages ↔
    r = Region.accessOfByte regions (a.above k)

section

variable {regions : List Region} {a start stop : Address} {length s e : Nat}
  {pages : List (Address × Access)}

theorem Page.start_lt_start {n m : Nat} (h : n < m) (hm : m * Page.size < wordLimit) :
    Page.start n < Page.start m := by
  have hlt := Nat.mul_lt_mul_of_pos_right h (by decide : 0 < Page.size)
  rwa [Address.lt_iff, Page.toNat_start hm, Page.toNat_start (hlt.trans hm)]

theorem Page.exists_start_iff {page : Address} (he : e * Page.size < wordLimit) :
    (∃ n, (s ≤ n ∧ n < e) ∧ Page.start n = page) ↔
      Page.size ∣ page.toNat ∧ s * Page.size ≤ page.toNat ∧ page.toNat < e * Page.size := by
  have hsize : 0 < Page.size := by decide
  constructor
  · rintro ⟨n, ⟨hn, hlt⟩, rfl⟩
    have hup := Nat.mul_lt_mul_of_pos_right hlt hsize
    rw [Page.toNat_start (hup.trans he)]
    exact ⟨Nat.dvd_mul_left _ _, Nat.mul_le_mul_right _ hn, hup⟩
  · rintro ⟨⟨n, hn⟩, hle, hlt⟩
    rw [Nat.mul_comm] at hn
    rw [hn] at hle hlt
    refine ⟨n, ⟨Nat.le_of_mul_le_mul_right hle hsize, Nat.lt_of_mul_lt_mul_right hlt⟩, ?_⟩
    rw [Page.start, ← hn, Address.ofNat_toNat]

theorem recorded_of_accessOfPages (hs : start.toNat = s * Page.size)
    (he : stop.toNat = e * Page.size) (hcovers : Page.Covers a length start.toNat stop.toNat)
    (haligned : ∀ r ∈ regions, r.Aligned) (h : accessOfPages regions start stop = .ok pages) :
    Recorded regions a length start stop pages := by
  have hbelow := hcovers.below
  have habove := hcovers.above
  have hlimit : e * Page.size < wordLimit := he ▸ stop.toNat_lt
  rw [accessOfPages_ok h hs he]
  have hmem (n : Nat) : n ∈ List.range' s (e - s) ↔ s ≤ n ∧ n < e := by
    rw [List.mem_range'_1]
    omega
  constructor
  case ascending =>
    rw [List.map_map, List.pairwise_map]
    refine List.Pairwise.imp_of_mem (fun {n m} _ hm hlt => Page.start_lt_start hlt ?_)
      List.pairwise_lt_range'
    exact (Nat.mul_le_mul_right _ ((hmem m).1 hm).2.le).trans_lt hlimit
  case exactly =>
    intro page
    rw [hs, he, ← Page.exists_start_iff hlimit]
    simp only [List.map_map, List.mem_map, Function.comp_apply, hmem]
  case access =>
    intro k hk r
    have hbyte : (a.above k).toNat = a.toNat + k := Address.toNat_above (by
      have hstop := stop.toNat_lt
      omega)
    have hpage : ∃ n, (s ≤ n ∧ n < e) ∧ Page.start n = Page.base (a.above k) :=
      (Page.exists_start_iff hlimit).2 ⟨?divides, ?below, ?above⟩
    · obtain ⟨n, hn, hbase⟩ := hpage
      rw [← Region.accessOfPage_base haligned, ← hbase]
      simp only [List.mem_map, hmem, Prod.mk.injEq]
      constructor
      · rintro ⟨m, _, hm, rfl⟩
        rw [hm]
      · rintro rfl
        exact ⟨n, hn, rfl, rfl⟩
    case divides =>
      rw [Page.toNat_base]
      exact Nat.dvd_mul_left _ _
    case below =>
      rw [Page.toNat_base, Page.number, hbyte]
      refine Nat.mul_le_mul_right _ ((Nat.le_div_iff_mul_le (by decide)).2 ?_)
      omega
    case above =>
      have hdown := Nat.div_mul_le_self (a.toNat + k) Page.size
      rw [Page.toNat_base, Page.number, hbyte]
      omega

/-- The pages of a patch are the least whole pages around its bytes. All of them are recorded, each
once and in ascending order, and every byte of the patch is recorded with the access of the first
region that has it. Pages have one size on both architectures. -/
theorem protections_exact (h : a.toNat + (max length 1 - 1) < wordLimit - Page.size)
    (haligned : ∀ r ∈ regions, r.Aligned) :
    ∃ start stop pages, Page.span a length = .ok (start, stop) ∧
      Page.Covers a length start.toNat stop.toNat ∧
      (∀ s e, Page.Covers a length s e → s ≤ start.toNat ∧ stop.toNat ≤ e) ∧
      accessOfPages regions start stop = .ok pages ∧
      (∀ (W : Type) (space : CodeSpace W) (w : W), space.regions w = regions →
        space.protections a length w = .ok pages) ∧
      Recorded regions a length start stop pages := by
  obtain ⟨start, stop, hspan⟩ := Page.exists_span h
  obtain ⟨hstart, hstop⟩ := Page.span_ok hspan
  have hcovers : Page.Covers a length start.toNat stop.toNat := by
    rw [hstart, hstop]
    exact Page.covers_numbers
  obtain ⟨pages, hpages⟩ : ∃ pages, accessOfPages regions start stop = .ok pages :=
    exists_accessOfPages hstart hstop
  refine ⟨start, stop, pages, hspan, hcovers, ?least, hpages, ?asked,
    recorded_of_accessOfPages hstart hstop hcovers haligned hpages⟩
  case least =>
    intro s e hother
    rw [hstart, hstop]
    exact hother.least
  case asked =>
    rintro W space w rfl
    rw [CodeSpace.protections, hspan]
    exact hpages

/-- Code that is followed by a page of data. -/
def straddled : List Region :=
  [⟨⟨0x10000⟩, ⟨0x11000⟩, .readExecute, false, 0, none⟩,
    ⟨⟨0x11000⟩, ⟨0x13000⟩, .read, false, 0, none⟩]

theorem protections_exact_straddled :
    (⟨0x10FFA⟩ : Address).toNat + (max 14 1 - 1) < wordLimit - Page.size ∧
    (∀ r ∈ straddled, r.Aligned) ∧
    ∃ start stop pages, Page.span ⟨0x10FFA⟩ 14 = .ok (start, stop) ∧
      start = ⟨0x10000⟩ ∧ stop = ⟨0x12000⟩ ∧ accessOfPages straddled start stop = .ok pages ∧
      Recorded straddled ⟨0x10FFA⟩ 14 start stop pages ∧
      (Page.base ((⟨0x10FFA⟩ : Address).above 5), .readExecute) ∈ pages ∧
      (Page.base ((⟨0x10FFA⟩ : Address).above 6), .read) ∈ pages := by
  have hfits : (⟨0x10FFA⟩ : Address).toNat + (max 14 1 - 1) < wordLimit - Page.size := by decide
  have haligned : ∀ r ∈ straddled, r.Aligned := by
    rintro r (_ | ⟨_, _ | ⟨_, hr⟩⟩)
    · exact ⟨⟨0x10, rfl⟩, ⟨0x11, rfl⟩⟩
    · exact ⟨⟨0x11, rfl⟩, ⟨0x13, rfl⟩⟩
    · cases hr
  obtain ⟨start, stop, pages, hspan, _, _, hpages, _, hrecorded⟩ := protections_exact hfits haligned
  have hcomputed : Page.span ⟨0x10FFA⟩ 14 = .ok (⟨0x10000⟩, ⟨0x12000⟩) := by decide
  cases hspan.symm.trans hcomputed
  exact ⟨hfits, haligned, _, _, pages, hspan, rfl, rfl, hpages, hrecorded,
    (hrecorded.access 5 (by decide) _).2 (by decide),
    (hrecorded.access 6 (by decide) _).2 (by decide)⟩

end

end Grapnel
