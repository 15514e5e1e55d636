import Grapnel.Patch.Arena
import Grapnel.Proofs.Patch.View

namespace Grapnel

namespace Arena

/-- Whole pages of content, below the end of the address space. -/
structure Sound (w : Arena) : Prop where
  aligned : w.base.toNat = Page.number w.base.toNat * Page.size
  filled : w.content.length = w.pages.length * Page.size
  fits : w.base.toNat + w.pages.length * Page.size < wordLimit

def byteAt (w : Arena) (place : Nat) : UInt8 :=
  if w.base.toNat ≤ place then (w.content[place - w.base.toNat]?).getD 0 else 0

def accessAt (w : Arena) (n : Nat) : Option Access :=
  if Page.number w.base.toNat ≤ n then
    (w.pages[n - Page.number w.base.toNat]?).join.map (·.access)
  else none

variable {w : Arena} {a : Address} {place : Nat}

theorem inside_of_mapped (hs : w.Sound) (h : (w.accessAt (Page.number place)).isSome) :
    w.base.toNat ≤ place ∧ place - w.base.toNat < w.content.length := by
  rw [accessAt] at h
  split at h
  · next hle =>
    have hindex : Page.number place - Page.number w.base.toNat < w.pages.length := by
      by_contra hlarge
      rw [List.getElem?_eq_none (Nat.le_of_not_lt hlarge)] at h
      cases h
    have haligned := hs.aligned
    have hfilled := hs.filled
    simp only [Page.number, Page.size_eq] at haligned hfilled hle hindex
    omega
  · cases h

theorem getElem?_bytes {n k : Nat} (hk : k < n) (ha : w.base.toNat ≤ a.toNat)
    (hin : a.toNat + k - w.base.toNat < w.content.length) :
    (w.bytes a n)[k]? = some (w.byteAt (a.toNat + k)) := by
  have hplace : a.toNat - w.base.toNat + k = a.toNat + k - w.base.toNat := by omega
  have hpresent : k < ((w.content.drop (a.toNat - w.base.toNat)).take n).length := by
    rw [List.length_take, List.length_drop]
    omega
  rw [bytes, List.getElem?_append_left hpresent, List.getElem?_take_of_lt hk, List.getElem?_drop,
    hplace, byteAt, if_pos (Nat.le_add_right_of_le ha), List.getElem?_eq_getElem hin,
    Option.getD_some]

theorem bytes_eq {n : Nat} (hs : w.Sound)
    (hmapped : ∀ k < n, (w.accessAt (Page.number (a.toNat + k))).isSome) :
    w.bytes a n = bytesFrom w.byteAt a.toNat n := by
  apply List.ext_getElem?
  intro k
  have hright := getElem?_bytesFrom w.byteAt a.toNat n k
  rw [List.getElem?_toArray] at hright
  rw [hright]
  split
  · next hk =>
    obtain ⟨ha, _⟩ := inside_of_mapped hs (hmapped 0 (by omega))
    obtain ⟨_, hin⟩ := inside_of_mapped hs (hmapped k hk)
    exact getElem?_bytes hk ha hin
  · next hk =>
    apply List.getElem?_eq_none
    rw [length_bytes]
    exact Nat.le_of_not_lt hk

theorem setBytes_eq {bytes : List UInt8} (hs : w.Sound)
    (hmapped : ∀ k < bytes.length, (w.accessAt (Page.number (a.toNat + k))).isSome) :
    (w.setBytes a bytes).Sound ∧ (w.setBytes a bytes).byteAt = overlay w.byteAt a.toNat bytes := by
  cases bytes with
  | nil =>
    have hsame : w.setBytes a [] = w := by
      rw [setBytes]
      simp only [List.append_nil, List.length_nil, Nat.add_zero, List.take_append_drop]
    rw [hsame]
    refine ⟨hs, ?_⟩
    funext place
    exact (overlay_of_outside (by simp)).symm
  | cons b bytes =>
    generalize hcontent : b :: bytes = content at hmapped
    have hpos : 0 < content.length := by
      rw [← hcontent]
      exact Nat.succ_pos _
    obtain ⟨hlow, _⟩ := inside_of_mapped hs (hmapped 0 hpos)
    obtain ⟨_, hhigh⟩ := inside_of_mapped hs (hmapped (content.length - 1) (by omega))
    rw [Nat.add_zero] at hlow
    constructor
    · refine ⟨hs.aligned, ?_, hs.fits⟩
      rw [setBytes, ← hs.filled]
      simp only [List.length_append, List.length_take, List.length_drop]
      omega
    · funext place
      have hfit : a.toNat - w.base.toNat + content.length ≤ w.content.length := by omega
      have hbyte : (w.setBytes a content).byteAt place =
          if w.base.toNat ≤ place then
            (if a.toNat - w.base.toNat ≤ place - w.base.toNat ∧
                place - w.base.toNat < a.toNat - w.base.toNat + content.length then
              content[place - w.base.toNat - (a.toNat - w.base.toNat)]?
            else w.content[place - w.base.toNat]?).getD 0
          else 0 := by
        rw [byteAt, setBytes, ← getElem?_splice hfit]
      rw [hbyte]
      by_cases hcovers : a.toNat ≤ place ∧ place < a.toNat + content.length
      · rw [if_pos (by omega), if_pos (by omega)]
        have hoffset : place - w.base.toNat - (a.toNat - w.base.toNat) = place - a.toNat := by omega
        rw [hoffset, getElem?_overlay (f := w.byteAt) hcovers.1 hcovers.2, Option.getD_some]
      · rw [overlay_of_outside hcovers, byteAt]
        split
        · rw [if_neg (by omega)]
        · rfl

theorem length_protectPages (access : Access) (count : Nat) (pages : List (Option ArenaPage)) :
    (protectPages access count pages).2.length = pages.length := by
  fun_induction protectPages access count pages with
  | case1 | case2 | case3 | case4 => rfl
  | case5 count page pages hopen result rest hrest ih =>
    rw [hrest] at ih
    rw [List.length_cons, List.length_cons, ih]

theorem protectPages_ok {access : Access} {count : Nat} {pages : List (Option ArenaPage)}
    (h : (protectPages access count pages).1 = .ok ()) (j : Nat) :
    if j < count then
      ((pages[j]?).join.map (·.access)).isSome ∧
        ((protectPages access count pages).2[j]?).join.map (·.access) = some access
    else (protectPages access count pages).2[j]? = pages[j]? := by
  fun_induction protectPages access count pages generalizing j with
  | case1 => rfl
  | case2 | case3 | case4 => cases h
  | case5 count page pages hopen result rest hrest ih =>
    rw [hrest] at ih
    cases j with
    | zero => exact ⟨rfl, rfl⟩
    | succ j =>
      simp only [Nat.succ_lt_succ_iff, List.getElem?_cons_succ]
      exact ih h j

theorem getElem?_take_append {α : Type} {l l' : List α} {first : Nat}
    (hlength : l'.length = (l.drop first).length) (j : Nat) :
    (l.take first ++ l')[j]? = if j < first then l[j]? else l'[j - first]? := by
  rw [List.length_drop] at hlength
  split
  · next hlow =>
    by_cases hj : j < l.length
    · rw [List.getElem?_append_left (by rw [List.length_take]; omega), List.getElem?_take_of_lt hlow]
    · rw [List.getElem?_append_right (by rw [List.length_take]; omega),
        List.getElem?_eq_none (by omega), List.getElem?_eq_none (by omega)]
  · next hhigh =>
    rw [List.getElem?_append_right (by rw [List.length_take]; omega), List.length_take]
    by_cases hfirst : first ≤ l.length
    · rw [Nat.min_eq_left hfirst]
    · rw [List.getElem?_eq_none (by omega), List.getElem?_eq_none (by omega)]

theorem protect_sound {start stop : Address} {access : Access} (hs : w.Sound) :
    (protect start stop access w).2.Sound ∧ (protect start stop access w).2.byteAt = w.byteAt := by
  rw [protect]
  split
  · refine ⟨⟨hs.aligned, ?_, ?_⟩, rfl⟩
    · dsimp only
      rw [List.length_append, length_protectPages, ← List.length_append, List.take_append_drop]
      exact hs.filled
    · dsimp only
      rw [List.length_append, length_protectPages, ← List.length_append, List.take_append_drop]
      exact hs.fits
  · exact ⟨hs, rfl⟩

theorem protect_eq {start stop : Address} {access : Access} {s e : Nat} (hs : w.Sound)
    (hstart : start.toNat = s * Page.size) (hstop : stop.toNat = e * Page.size)
    (hbase : Page.number w.base.toNat ≤ s) :
    protect start stop access w =
      ((protectPages access (e - s) (w.pages.drop (s - Page.number w.base.toNat))).1,
        { w with pages := w.pages.take (s - Page.number w.base.toNat) ++
          (protectPages access (e - s) (w.pages.drop (s - Page.number w.base.toNat))).2 }) := by
  have haligned := hs.aligned
  have hle : w.base ≤ start := by
    apply UInt64.le_iff_toNat_le.2
    change w.base.toNat ≤ start.toNat
    rw [haligned, hstart]
    exact Nat.mul_le_mul_right _ hbase
  have hfirst : (start.toNat - w.base.toNat) / Page.size = s - Page.number w.base.toNat := by
    rw [hstart]
    simp only [Page.number, Page.size_eq] at haligned ⊢
    omega
  have hcount : (stop.toNat - start.toNat) / Page.size = e - s := by
    rw [hstart, hstop, ← Nat.sub_mul, Nat.mul_div_cancel _ (by decide)]
  rw [protect, if_pos hle, hfirst, hcount]

theorem accessAt_protect {start stop : Address} {access : Access} {s e : Nat} (hs : w.Sound)
    (hstart : start.toNat = s * Page.size) (hstop : stop.toNat = e * Page.size)
    (h : (protect start stop access w).1 = .ok ()) (n : Nat) :
    if s ≤ n ∧ n < e then
      (w.accessAt n).isSome ∧ (protect start stop access w).2.accessAt n = some access
    else (protect start stop access w).2.accessAt n = w.accessAt n := by
  have hbase : Page.number w.base.toNat ≤ s := by
    by_contra hlow
    have haligned := hs.aligned
    have hnot : ¬ w.base ≤ start := by
      intro hle
      have hle : w.base.toNat ≤ start.toNat := UInt64.le_iff_toNat_le.1 hle
      rw [hstart, haligned] at hle
      exact hlow (Nat.le_of_mul_le_mul_right hle (by decide))
    rw [protect, if_neg hnot] at h
    cases h
  rw [protect_eq hs hstart hstop hbase] at h ⊢
  have hpages := protectPages_ok h (n - s)
  have hlength := length_protectPages access (e - s) (w.pages.drop (s - Page.number w.base.toNat))
  simp only [accessAt, getElem?_take_append hlength]
  split
  · next hin =>
    have hlow : ¬ n - Page.number w.base.toNat < s - Page.number w.base.toNat := by omega
    have hindex : n - Page.number w.base.toNat - (s - Page.number w.base.toNat) = n - s := by omega
    have hplace : s - Page.number w.base.toNat + (n - s) = n - Page.number w.base.toNat := by omega
    rw [if_pos (by omega), List.getElem?_drop, hplace] at hpages
    rw [if_pos (by omega), if_pos (by omega), if_neg hlow, hindex]
    exact hpages
  · next hout =>
    split
    · split
      · rfl
      · next hlow hhigh =>
        have hindex : n - Page.number w.base.toNat - (s - Page.number w.base.toNat) = n - s := by
          omega
        have hplace : s - Page.number w.base.toNat + (n - s) = n - Page.number w.base.toNat := by
          omega
        rw [if_neg (by omega), List.getElem?_drop, hplace] at hpages
        rw [hindex, hpages]
    · rfl

/-- The access of the first region with an address. -/
def told (regions : List Region) (a : Address) : Option Access :=
  (regions.find? (·.contains a)).map (·.access)

theorem told_cons {r : Region} {rs : List Region} :
    told (r :: rs) a = if r.contains a then some r.access else told rs a := by
  rw [told, List.find?_cons]
  cases r.contains a <;> rfl

/-- Regions in ascending order from a place on. -/
def Above (start : Nat) (rs : List Region) : Prop :=
  ∀ r ∈ rs, start ≤ r.start.toNat ∧ r.start.toNat ≤ r.stop.toNat

theorem told_region (page : ArenaPage) {start : Nat} {rs : List Region}
    (hfit : start + Page.size < wordLimit) (hrs : Above (start + Page.size) rs) :
    Above start (region start page rs) ∧ told (region start page rs) a =
      if start ≤ a.toNat ∧ a.toNat < start + Page.size then some page.access else told rs a := by
  have hstart : (Address.ofNat start).toNat = start := Address.toNat_ofNat (by omega)
  have hstop : (Address.ofNat (start + Page.size)).toNat = start + Page.size :=
    Address.toNat_ofNat hfit
  have hnew : Above start (⟨.ofNat start, .ofNat (start + Page.size), page.access, page.isSealed, 0,
      none⟩ :: rs) ∧
      told (⟨.ofNat start, .ofNat (start + Page.size), page.access, page.isSealed, 0, none⟩ :: rs) a =
        if start ≤ a.toNat ∧ a.toNat < start + Page.size then some page.access else told rs a := by
    constructor
    · intro r hr
      rcases List.mem_cons.1 hr with rfl | hr
      · rw [hstart, hstop]
        exact ⟨Nat.le_refl _, Nat.le_add_right _ _⟩
      · obtain ⟨hlow, hordered⟩ := hrs r hr
        exact ⟨Nat.le_trans (Nat.le_add_right _ _) hlow, hordered⟩
    · simp only [told_cons, Region.contains_iff, hstart, hstop]
  cases rs with
  | nil => exact hnew
  | cons r rs =>
    obtain ⟨hlow, hordered⟩ := hrs r List.mem_cons_self
    simp only [region]
    split
    · next hjoin =>
      simp only [Bool.and_eq_true, beq_iff_eq] at hjoin
      obtain ⟨⟨_, haccess⟩, hadjacent⟩ := hjoin
      constructor
      · intro k hk
        rcases List.mem_cons.1 hk with rfl | hk
        · exact ⟨hstart.ge, by dsimp only; omega⟩
        · obtain ⟨hlow, hordered⟩ := hrs k (List.mem_cons_of_mem _ hk)
          exact ⟨Nat.le_trans (Nat.le_add_right _ _) hlow, hordered⟩
      · simp only [told_cons, Region.contains_iff, hstart, haccess]
        split
        · split
          · rfl
          · rw [if_pos (by omega)]
        · rw [if_neg (by omega), if_neg (by omega)]
    · exact hnew

theorem told_regionsFrom {start : Nat} {pages : List (Option ArenaPage)}
    (hfit : start + pages.length * Page.size < wordLimit) :
    Above start (regionsFrom start pages) ∧ told (regionsFrom start pages) a =
      if start ≤ a.toNat then (pages[(a.toNat - start) / Page.size]?).join.map (·.access)
      else none := by
  induction pages generalizing start with
  | nil => exact ⟨nofun, by split <;> rfl⟩
  | cons page pages ih =>
    rw [List.length_cons, Nat.succ_mul] at hfit
    have hrest : start + Page.size + pages.length * Page.size < wordLimit := by omega
    obtain ⟨habove, htold⟩ := ih hrest
    have hhead (hlow : start ≤ a.toNat) (hhigh : a.toNat < start + Page.size) :
        (page :: pages)[(a.toNat - start) / Page.size]? = some page := by
      rw [Nat.div_eq_of_lt (by omega), List.getElem?_cons_zero]
    have htail (hhigh : start + Page.size ≤ a.toNat) :
        (page :: pages)[(a.toNat - start) / Page.size]? =
          pages[(a.toNat - (start + Page.size)) / Page.size]? := by
      rw [Nat.div_eq_sub_div (by decide) (by omega), Nat.sub_sub, List.getElem?_cons_succ]
    cases page with
    | none =>
      refine ⟨?_, ?_⟩
      · intro r hr
        obtain ⟨hlow, hordered⟩ := habove r hr
        exact ⟨by omega, hordered⟩
      · rw [regionsFrom, htold]
        by_cases hhigh : start + Page.size ≤ a.toNat
        · rw [if_pos hhigh, if_pos (by omega), htail hhigh]
        · rw [if_neg hhigh]
          split
          · rw [hhead (by omega) (by omega)]
            rfl
          · rfl
    | some page =>
      obtain ⟨habove', htold'⟩ := told_region (a := a) page (by omega) habove
      refine ⟨habove', ?_⟩
      rw [regionsFrom, htold', htold]
      by_cases hhigh : start + Page.size ≤ a.toNat
      · rw [if_neg (by omega), if_pos hhigh, if_pos (by omega), htail hhigh]
      · split
        · rw [if_pos (by omega), hhead (by omega) (by omega)]
          rfl
        · rw [if_neg (by omega)]

theorem accessOfPage_regions {n : Nat} {r : Access} (hs : w.Sound) (h : w.accessAt n = some r) :
    accessOfPage w.regions (Page.start n) = r := by
  rw [accessAt] at h
  split at h
  · next hle =>
    have haligned := hs.aligned
    have hindex : n - Page.number w.base.toNat < w.pages.length := by
      by_contra hlarge
      rw [List.getElem?_eq_none (Nat.le_of_not_lt hlarge)] at h
      cases h
    have hfits := hs.fits
    have hstart : (Page.start n).toNat = n * Page.size := by
      apply Address.toNat_ofNat
      simp only [Page.number, Page.size_eq] at haligned hindex hle hfits ⊢
      omega
    have hplace : ((Page.start n).toNat - w.base.toNat) / Page.size = n - Page.number w.base.toNat := by
      rw [hstart]
      simp only [Page.number, Page.size_eq] at haligned ⊢
      omega
    have hlow : w.base.toNat ≤ (Page.start n).toNat := by
      rw [hstart, haligned]
      exact Nat.mul_le_mul_right _ hle
    have htold := (told_regionsFrom (a := Page.start n) hs.fits).2
    rw [if_pos hlow, hplace, h, told, Option.map_eq_some_iff] at htold
    obtain ⟨region, hfind, haccess⟩ := htold
    rw [accessOfPage, regions, hfind]
    exact haccess
  · cases h

/-- A sound arena is seen by its places and its pages. -/
def view : space.View where
  Sound := Sound
  byte := byteAt
  access := accessAt
  read hs hmapped := bytes_eq hs hmapped
  write _ _ hs hwritable := by
    obtain ⟨hsound, hbyte⟩ := setBytes_eq hs fun k hk => by
      obtain ⟨r, hr, _⟩ := hwritable k hk
      rw [hr]
      rfl
    exact ⟨hsound, hbyte, rfl⟩
  protect _ _ _ hs := protect_sound hs
  protect_ok hs hstart hstop hok := accessAt_protect hs hstart hstop hok
  allocate hs := ⟨hs, rfl, rfl⟩
  regions hs haccess := accessOfPage_regions hs haccess

end Arena

end Grapnel
