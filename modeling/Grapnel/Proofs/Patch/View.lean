import Grapnel.Proofs.Memory.Overlay
import Grapnel.Proofs.Patch.Page

namespace Grapnel

variable {W : Type}

/-- What the states of an address space come to, with what reading, writing and changing the access
of pages do to it. Pages go by their numbers; those without an access are not mapped, or are of no
concern. -/
structure CodeSpace.View (space : CodeSpace W) where
  Sound : W → Prop
  byte : W → Nat → UInt8
  access : W → Nat → Option Access
  read : ∀ {w a n}, Sound w → (∀ k < n, (access w (Page.number (a.toNat + k))).isSome) →
    space.read a n w = bytesFrom (byte w) a.toNat n
  write : ∀ {w} (a : Address) (bytes : List UInt8), Sound w →
    (∀ k < bytes.length, ∃ r, access w (Page.number (a.toNat + k)) = some r ∧ r.contains .write) →
    Sound (space.write a bytes w) ∧ byte (space.write a bytes w) = overlay (byte w) a.toNat bytes ∧
      access (space.write a bytes w) = access w
  /-- Changing the access of pages leaves every byte alone, also where it is refused. -/
  protect : ∀ {w} (start stop : Address) (r : Access), Sound w →
    Sound (space.protect start stop r w).2 ∧ byte (space.protect start stop r w).2 = byte w
  protect_ok : ∀ {w start stop r s e}, Sound w → start.toNat = s * Page.size →
    stop.toNat = e * Page.size → (space.protect start stop r w).1 = .ok () → ∀ n,
      if s ≤ n ∧ n < e then
        (access w n).isSome ∧ access (space.protect start stop r w).2 n = some r
      else access (space.protect start stop r w).2 n = access w n
  allocate : ∀ {w}, Sound w → Sound (space.allocate w).2 ∧
    byte (space.allocate w).2 = byte w ∧ access (space.allocate w).2 = access w
  /-- The regions tell the access of every page. -/
  regions : ∀ {w n r}, Sound w → access w n = some r →
    accessOfPage (space.regions w) (Page.start n) = r

namespace CodeSpace

/-- The ways in which a patch goes. -/
inductive Patches (space : CodeSpace W) (target : Address) (content : List UInt8)
    (pages : List (Address × Access)) (w : W) : Except HookFault Unit × W → Prop where
  | overflow {trap : Trap} : Page.span target content.length = .error trap →
      Patches space target content pages w (.error (.trapped trap), w)
  | refused {start stop : Address} {fault : IoFault} {w' : W} :
      Page.span target content.length = .ok (start, stop) →
      space.protect start stop .all w = (.error fault, w') →
      Patches space target content pages w (.error (.protection start fault), w')
  | written {start stop : Address} {w' : W} :
      Page.span target content.length = .ok (start, stop) →
      space.protect start stop .all w = (.ok (), w') →
      Patches space target content pages w
        (.ok (), space.restore pages (space.write target content w'))

theorem patch_goes (space : CodeSpace W) (target : Address) (content : List UInt8)
    (pages : List (Address × Access)) (w : W) :
    Patches space target content pages w (space.patch target content pages w) := by
  rw [patch]
  cases hspan : Page.span target content.length with
  | error trap => exact .overflow hspan
  | ok range =>
    dsimp only
    cases hp : space.protect range.1 range.2 .all w with
    | mk result w' =>
      cases result with
      | error fault => exact .refused hspan hp
      | ok _ => exact .written hspan hp

/-- Every page takes its access back. -/
def GivesBack (space : CodeSpace W) : List (Address × Access) → W → Prop
  | [], _ => True
  | (page, access) :: pages, w =>
    (space.protect page (.ofNat (page.toNat + Page.size)) access w).1 = .ok () ∧
      GivesBack space pages (space.protect page (.ofNat (page.toNat + Page.size)) access w).2

namespace View

variable {space : CodeSpace W} (v : space.View) {w w' : W} {target : Address} {content : List UInt8}
  {pages : List (Address × Access)}

/-- The access that a patch needs is refused without effect, or can be taken back from every page. -/
def Reversible (target : Address) (content : List UInt8) (pages : List (Address × Access)) (w : W) :
    Prop :=
  ∀ start stop, Page.span target content.length = .ok (start, stop) →
    match space.protect start stop .all w with
    | (.error _, w') => v.access w' = v.access w
    | (.ok _, w') => space.GivesBack pages (space.write target content w')

theorem restore (pages : List (Address × Access)) (hs : v.Sound w) :
    v.Sound (space.restore pages w) ∧ v.byte (space.restore pages w) = v.byte w := by
  induction pages generalizing w with
  | nil => exact ⟨hs, rfl⟩
  | cons page pages ih =>
    obtain ⟨hsound, hbyte⟩ :=
      v.protect page.1 (.ofNat (page.1.toNat + Page.size)) page.2 hs
    obtain ⟨hsound', hbyte'⟩ := ih hsound
    exact ⟨hsound', hbyte'.trans hbyte⟩

theorem access_restore {numbers : List Nat} {r : Nat → Access} (hs : v.Sound w)
    (hfit : ∀ n ∈ numbers, (n + 1) * Page.size < wordLimit) (hnodup : numbers.Nodup)
    (hback : space.GivesBack (numbers.map fun n => (Page.start n, r n)) w) (n : Nat) :
    v.access (space.restore (numbers.map fun n => (Page.start n, r n)) w) n =
      if n ∈ numbers then some (r n) else v.access w n := by
  induction numbers generalizing w with
  | nil => rfl
  | cons m numbers ih =>
    obtain ⟨hgranted, hrest⟩ := hback
    obtain ⟨hnotin, hnodup⟩ := List.nodup_cons.1 hnodup
    have hm := hfit m List.mem_cons_self
    rw [Nat.succ_mul] at hm
    have hstart : (Page.start m).toNat = m * Page.size := Address.toNat_ofNat (by omega)
    have hstop : (Address.ofNat ((Page.start m).toNat + Page.size)).toNat = (m + 1) * Page.size := by
      rw [hstart, Address.toNat_ofNat hm, Nat.succ_mul]
    have hone := v.protect_ok hs hstart hstop hgranted n
    rw [List.map_cons, CodeSpace.restore, ih (v.protect _ _ _ hs).1
      (fun k hk => hfit k (List.mem_cons_of_mem _ hk)) hnodup hrest]
    -- the pages behind the first are others, and do not take its access away again
    by_cases hn : n = m
    · subst hn
      rw [if_pos ⟨Nat.le_refl _, Nat.lt_succ_self _⟩] at hone
      rw [if_neg hnotin, if_pos List.mem_cons_self, hone.2]
    · rw [if_neg (by omega)] at hone
      simp only [List.mem_cons, hn, false_or, hone]

/-- What is left once the pages of a range have been opened and bytes have been written there. -/
theorem write_opened {start stop : Address} (hs : v.Sound w)
    (hspan : Page.span target content.length = .ok (start, stop))
    (hp : space.protect start stop .all w = (.ok (), w')) :
    v.Sound (space.write target content w') ∧
      v.byte (space.write target content w') = overlay (v.byte w) target.toNat content ∧
      ∀ n, if n ∈ Page.numbers target content.length then (v.access w n).isSome
        else v.access (space.write target content w') n = v.access w n := by
  obtain ⟨hstart, hstop⟩ := Page.span_ok hspan
  obtain ⟨hs₁, hb₁⟩ := v.protect start stop .all hs
  have hacc := v.protect_ok (r := .all) hs hstart hstop (congrArg Prod.fst hp)
  rw [hp] at hs₁ hb₁ hacc
  dsimp only at hs₁ hb₁ hacc
  simp only [Nat.lt_succ_iff, ← Page.mem_numbers] at hacc
  obtain ⟨hs₂, hb₂, ha₂⟩ := v.write target content hs₁ fun k hk => by
    have hall := hacc (Page.number (target.toNat + k))
    rw [if_pos (Page.number_mem_numbers hk)] at hall
    exact ⟨.all, hall.2, rfl⟩
  refine ⟨hs₂, by rw [hb₂, hb₁], ?_⟩
  intro n
  have hn := hacc n
  rw [ha₂]
  split at hn
  · next hmem =>
    rw [if_pos hmem]
    exact hn.1
  · next hmem => rwa [if_neg hmem]

/-- A patch writes its content, and it does so only over pages that are mapped. -/
theorem patch_ok (hs : v.Sound w) (h : space.patch target content pages w = (.ok (), w')) :
    v.Sound w' ∧ v.byte w' = overlay (v.byte w) target.toNat content ∧
      ∀ n ∈ Page.numbers target content.length, (v.access w n).isSome := by
  have hgoes := space.patch_goes target content pages w
  rw [h] at hgoes
  cases hgoes with
  | written hspan hp =>
    obtain ⟨hs₁, hb₁, ha₁⟩ := v.write_opened hs hspan hp
    obtain ⟨hs₂, hb₂⟩ := v.restore pages hs₁
    refine ⟨hs₂, hb₂.trans hb₁, ?_⟩
    intro n hn
    have hmapped := ha₁ n
    rwa [if_pos hn] at hmapped

theorem patch_error {fault : HookFault} (hs : v.Sound w)
    (h : space.patch target content pages w = (.error fault, w')) :
    v.Sound w' ∧ v.byte w' = v.byte w := by
  have hgoes := space.patch_goes target content pages w
  rw [h] at hgoes
  cases hgoes with
  | overflow => exact ⟨hs, rfl⟩
  | @refused start stop _ _ _ hp =>
    have hsame := v.protect start stop .all hs
    rwa [hp] at hsame

/-- A patch over pages that were recorded with the access that they have leaves it to every page. -/
theorem access_patch {r : Nat → Access} (hs : v.Sound w)
    (hback : v.Reversible target content pages w)
    (hpages : pages = (Page.numbers target content.length).map fun n => (Page.start n, r n))
    (hr : ∀ n ∈ Page.numbers target content.length, ∀ a, v.access w n = some a → r n = a) :
    v.access (space.patch target content pages w).2 = v.access w := by
  have hgoes := space.patch_goes target content pages w
  generalize space.patch target content pages w = result at hgoes
  cases hgoes with
  | overflow => rfl
  | refused hspan hp =>
    have hrefused := hback _ _ hspan
    rwa [hp] at hrefused
  | @written start stop w₁ hspan hp =>
    have hback := hback start stop hspan
    rw [hp] at hback
    dsimp only at hback
    obtain ⟨hs₁, _, ha₁⟩ := v.write_opened hs hspan hp
    have hfit : ∀ n ∈ Page.numbers target content.length, (n + 1) * Page.size < wordLimit := by
      intro n hn
      have hn := (Page.mem_numbers.1 hn).2
      have hlimit : stop.toNat < wordLimit := stop.word.toNat_lt
      rw [(Page.span_ok hspan).2] at hlimit
      exact Nat.lt_of_le_of_lt (Nat.mul_le_mul_right _ (Nat.succ_le_succ hn)) hlimit
    rw [hpages] at hback ⊢
    funext n
    rw [v.access_restore hs₁ hfit (List.nodup_range' ..) hback]
    have hn := ha₁ n
    split
    · next hmem =>
      rw [if_pos hmem, Option.isSome_iff_exists] at hn
      obtain ⟨a, ha⟩ := hn
      rw [ha, hr n hmem a ha]
    · next hmem => rwa [if_neg hmem] at hn

end View

end CodeSpace

end Grapnel
