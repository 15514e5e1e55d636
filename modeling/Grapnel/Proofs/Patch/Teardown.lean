import Grapnel.Proofs.Patch.ArenaView
import Grapnel.Proofs.Patch.Course

namespace Grapnel

variable {W : Type} {space : CodeSpace W} {arch : Architecture} {w₀ w : W} {ds : List Deed}
  {i : Interceptor} {m m' : Nat → UInt8} {hooks below above : List Hook} {h : Hook} {place : Nat}
  {b : UInt8}

/-- A memory under the jumps of some hooks, each over those before it. -/
def layers (arch : Architecture) (m : Nat → UInt8) (hooks : List Hook) : Nat → UInt8 :=
  hooks.foldl (fun m h => overlay m h.target.toNat (arch.jump h.detour)) m

theorem layers_append : layers arch m (below ++ above) = layers arch (layers arch m below) above :=
  List.foldl_append

theorem overlay_congr {a : Nat} {bytes : List UInt8} (h : m place = m' place) :
    overlay m a bytes place = overlay m' a bytes place := by
  rw [overlay, overlay, h]

theorem layers_congr (h : m place = m' place) :
    layers arch m hooks place = layers arch m' hooks place := by
  induction hooks generalizing m m' with
  | nil => exact h
  | cons k hooks ih => exact ih (overlay_congr h)

theorem overlay_jump_of_not_covers (h : Hook) (hnot : ¬ h.Covers arch place) :
    overlay m h.target.toNat (arch.jump h.detour) place = m place := by
  apply overlay_of_outside
  rwa [Architecture.length_jump]

theorem layers_of_not_covers (hnot : ∀ k ∈ hooks, ¬ k.Covers arch place) :
    layers arch m hooks place = m place := by
  induction hooks generalizing m with
  | nil => rfl
  | cons k hooks ih =>
    have hk := overlay_jump_of_not_covers (m := m) k (hnot k List.mem_cons_self)
    exact (ih fun k' hk' => hnot k' (List.mem_cons_of_mem _ hk')).trans hk

theorem layers_erase (hnot : ¬ h.Covers arch place) :
    layers arch m (below ++ h :: above) place = layers arch m (below ++ above) place := by
  rw [layers_append, layers_append]
  exact layers_congr (overlay_jump_of_not_covers h hnot)

/-- The place shows the layers of the hooks that stand, and each of them over it has displaced what
the layers below it show. -/
structure Layered (arch : Architecture) (m : Nat → UInt8) (hooks : List Hook) (place : Nat)
    (b : UInt8) : Prop where
  shown : b = layers arch m hooks place
  displaced : ∀ below h above, hooks = below ++ h :: above → h.Covers arch place →
    h.displaced[place - h.target.toNat]? = some (layers arch m below place)

namespace Layered

theorem push (hl : Layered arch m hooks place b)
    (hdisplaced : h.Covers arch place → h.displaced[place - h.target.toNat]? = some b)
    {f : Nat → UInt8} (hf : f place = b) :
    Layered arch m (hooks ++ [h]) place (overlay f h.target.toNat (arch.jump h.detour) place) := by
  constructor
  · rw [layers_append]
    exact overlay_congr (hf.trans hl.shown)
  · intro below k above heq hcovers
    -- `k` is the new hook, or one below it, for which nothing has changed
    rcases List.eq_nil_or_concat above with rfl | ⟨above, k', rfl⟩
    · obtain ⟨rfl, hk⟩ := List.append_inj' heq rfl
      cases hk
      rw [hdisplaced hcovers, hl.shown]
    · rw [List.concat_eq_append, ← List.cons_append, ← List.append_assoc] at heq
      obtain ⟨rfl, _⟩ := List.append_inj' heq rfl
      exact hl.displaced below k above rfl hcovers

/-- Taking a hook away keeps the layers, if none that was put later is over the place as well. -/
theorem take (hl : Layered arch m (below ++ h :: above) place b)
    (habove : h.Covers arch place → ∀ k ∈ above, ¬ k.Covers arch place)
    (hlength : h.displaced.length = arch.jumpSize) {f : Nat → UInt8} (hf : f place = b) :
    Layered arch m (below ++ above) place (overlay f h.target.toNat h.displaced place) := by
  constructor
  · by_cases hcovers : h.Covers arch place
    · rw [overlay_of_inside hcovers.1 (hl.displaced below h above rfl hcovers), layers_append,
        layers_of_not_covers (habove hcovers)]
    · rw [overlay_of_outside (hlength.symm ▸ hcovers), hf, hl.shown, layers_erase hcovers]
  · intro below' k above' heq hk
    rcases List.append_eq_append_iff.1 heq with ⟨rest, hbelow, habove'⟩ | ⟨rest, hbelow, habove'⟩
    · -- the hook `k` was put later than `h`, or is the first of those
      subst hbelow
      have hmem : k ∈ above := habove' ▸ List.mem_append_right _ List.mem_cons_self
      have hnot : ¬ h.Covers arch place := fun hcovers => habove hcovers k hmem hk
      have hsplit : below ++ h :: above = (below ++ h :: rest) ++ k :: above' := by
        rw [habove', List.append_assoc, List.cons_append]
      rw [hl.displaced _ k above' hsplit hk, layers_erase hnot]
    · cases rest with
      | nil =>
        rw [List.append_nil] at hbelow
        rw [List.nil_append] at habove'
        subst hbelow
        have hmem : k ∈ above := habove' ▸ List.mem_cons_self
        have hnot : ¬ h.Covers arch place := fun hcovers => habove hcovers k hmem hk
        have hsplit : below ++ h :: above = (below ++ [h]) ++ k :: above' := by
          rw [← habove', List.append_assoc, List.singleton_append]
        rw [hl.displaced _ k above' hsplit hk, layers_erase hnot, List.append_nil]
      | cons k' rest =>
        obtain ⟨rfl, rfl⟩ := List.cons.inj habove'
        apply hl.displaced below' k (rest ++ h :: above) _ hk
        rw [hbelow, List.append_assoc, List.cons_append]

end Layered

/-- No hook over a place is taken away while another one over it that was put later still stands. -/
def TopFirst (arch : Architecture) (ds : List Deed) (place : Nat) : Prop :=
  ∀ h above, .taken h above ∈ ds → h.Covers arch place → ∀ k ∈ above, ¬ k.Covers arch place

theorem Course.layered (v : space.View) (hs : v.Sound w₀) (hc : Course space arch w₀ ds i w)
    (htop : TopFirst arch ds place) :
    Layered arch (v.byte w₀) i.hooks place (v.byte w place) := by
  induction hc with
  | start => exact ⟨rfl, fun below _ _ heq => by cases below <;> cases heq⟩
  | @called ds i i' w w' answer call hc hcall ih =>
    obtain ⟨hsound, ht⟩ := hc.tables v hs
    obtain ⟨_, heffect⟩ := Interceptor.perform_effect v hsound hcall
    generalize Interceptor.deeds .. = new at heffect htop
    have hl := ih fun h above hmem => htop h above (List.mem_append_left _ hmem)
    cases heffect with
    | put hfree hplaced hdisplaced hbyte =>
      rw [hbyte, ht.arch_eq]
      apply hl.push _ rfl
      intro hcovers
      rw [hdisplaced, ht.arch_eq]
      exact getElem?_bytesFrom_sub hcovers.1 hcovers.2
    | @taken h below above _ hsplit hbyte =>
      have hh : h ∈ i.hooks := hsplit ▸ List.mem_append_right _ List.mem_cons_self
      rw [hsplit] at hl
      rw [hbyte, ht.forget_hooks hsplit]
      apply hl.take _ (ht.placed h hh).length rfl
      exact htop h above (List.mem_append_right _ List.mem_cons_self)
    | none hbyte =>
      rw [congrFun hbyte place]
      exact hl

namespace Interceptor

/-- The access that each removal needs is granted. -/
def Granted (space : CodeSpace W) : List Address → Interceptor → W → Prop
  | [], _, _ => True
  | target :: targets, i, w =>
    (∀ h start stop, i.hook? target = some h →
      Page.span target h.displaced.length = .ok (start, stop) →
      (space.protect start stop .all w).1 = .ok ()) ∧
    Granted space targets (i.remove space target w).2.1 (i.remove space target w).2.2

theorem remove_granted {target : Address} (ht : Tables arch ds i)
    (hmem : target ∈ i.hooks.map (·.target))
    (hgrant : ∀ h start stop, i.hook? target = some h →
      Page.span target h.displaced.length = .ok (start, stop) →
      (space.protect start stop .all w).1 = .ok ()) :
    ∃ h w', i.hook? target = some h ∧ i.remove space target w = (.ok true, i.forget h, w') := by
  obtain ⟨k, hk, rfl⟩ := List.mem_map.1 hmem
  have hsome : (i.hook? k.target).isSome := by
    rw [hook?, List.find?_isSome]
    exact ⟨k, hk, beq_self_eq_true _⟩
  obtain ⟨h, hh⟩ := Option.isSome_iff_exists.1 hsome
  obtain ⟨hmem, htarget⟩ := hook?_mem hh
  obtain ⟨start, stop, hspan⟩ := (ht.placed h hmem).spans
  rw [← (ht.placed h hmem).length, htarget] at hspan
  have hgranted := hgrant h start stop hh hspan
  cases hp : space.protect start stop .all w with
  | mk result w₁ =>
    rw [hp] at hgranted
    cases hgranted
    refine ⟨h, space.restore h.pages (space.write k.target h.displaced w₁), hh, ?_⟩
    simp only [remove, hh, CodeSpace.patch, hspan, hp]

/-- Removing every hook, in whatever order, goes on until none is left. -/
theorem removeEach_course (v : space.View) (hs : v.Sound w₀) {targets : List Address}
    (hc : Course space arch w₀ ds i w) (hperm : targets.Perm (i.hooks.map (·.target)))
    (hgrant : Granted space targets i w) :
    ∃ ds' i' w', removeEach space targets i w = (.ok (), i', w') ∧
      Course space arch w₀ (ds ++ ds') i' w' ∧ i'.hooks = [] := by
  induction targets generalizing ds i w with
  | nil =>
    refine ⟨[], i, w, rfl, by rwa [List.append_nil], ?_⟩
    exact List.map_eq_nil_iff.1 hperm.nil_eq.symm
  | cons target targets ih =>
    obtain ⟨_, ht⟩ := hc.tables v hs
    obtain ⟨hgrant, hrest⟩ := hgrant
    obtain ⟨h, w', hh, hremove⟩ := remove_granted ht (hperm.subset List.mem_cons_self) hgrant
    obtain ⟨hmem, htarget⟩ := hook?_mem hh
    obtain ⟨below, hsplit⟩ := hooks_split hmem
    have hcall := Course.called (.remove target) hc hremove
    have hleft : targets.Perm ((i.forget h).hooks.map (·.target)) := by
      rw [ht.forget_hooks hsplit]
      rw [hsplit, List.map_append, List.map_cons, htarget] at hperm
      rw [List.map_append]
      exact (hperm.trans List.perm_middle).cons_inv
    rw [hremove] at hrest
    obtain ⟨ds', i', w'', heach, hcourse, hnone⟩ := ih hcall hleft hrest
    refine ⟨_, i', w'', ?_, List.append_assoc .. ▸ hcourse, hnone⟩
    rw [removeEach, hremove]
    exact heach

end Interceptor

/-- When all hooks have gone, a place holds what the hook over it that went last had displaced. It
is restored just when this was its first byte, and so it is where the hooks went from the top. -/
theorem Interceptor.removeEach_restores_iff (v : space.View) (hs : v.Sound w₀)
    {targets : List Address} (hc : Course space arch w₀ ds i w)
    (hperm : targets.Perm (i.hooks.map (·.target))) (hgrant : Granted space targets i w) :
    ∃ ds' i' w', removeEach space targets i w = (.ok (), i', w') ∧
      Course space arch w₀ (ds ++ ds') i' w' ∧ i'.hooks = [] ∧
      ∀ place,
        (v.byte w' place = v.byte w₀ place ↔
          ∀ h above, Deed.LastOver arch (ds ++ ds') place (.taken h above) →
            h.displaced[place - h.target.toNat]? = some (v.byte w₀ place)) ∧
        (TopFirst arch (ds ++ ds') place → v.byte w' place = v.byte w₀ place) := by
  obtain ⟨ds', i', w', heach, hcourse, hnone⟩ := removeEach_course v hs hc hperm hgrant
  refine ⟨ds', i', w', heach, hcourse, hnone, ?_⟩
  intro place
  have htold := hcourse.told v hs place
  refine ⟨⟨?_, ?_⟩, ?_⟩
  · intro hsame h above hlast
    rw [← hsame]
    exact htold.last _ hlast
  · intro hlast
    by_cases hcovered : ∃ d ∈ ds ++ ds', d.hook.Covers arch place
    · obtain ⟨d, hd⟩ := Deed.exists_lastOver hcovered
      cases d with
      | put h =>
        -- it would still stand
        have hstands := htold.stands h hd
        rw [hnone] at hstands
        cases hstands
      | taken h above =>
        have hshown := htold.last _ hd
        exact Option.some.inj (hshown.symm.trans (hlast h above hd))
    · apply htold.untouched
      intro d hd hcovers
      exact hcovered ⟨d, hd, hcovers⟩
  · intro htop
    have hshown := (hcourse.layered v hs htop).shown
    rwa [hnone] at hshown

/-- A page of code, of which the first bytes count. -/
def Arena.codePage (rest : List UInt8) : Arena where
  base := .ofNat 0x10000
  pages := [some ⟨.readExecute, false⟩]
  content := [1, 2, 3, 4, 5, 6, 7, 8, 9, 10, 11, 12, 13, 14, 15, 16, 17, 18] ++ rest

namespace Interceptor

def low : Address := .ofNat 0x10000

def high : Address := .ofNat 0x10004

def elsewhere : Address := .ofNat 0x20000

/-- Two hooks with overlapping jumps were put, and the one below was taken away. -/
def undermined (rest : List UInt8) : Interceptor × Arena :=
  let s := ((create .amd64).perform Arena.space (.codePage rest) (.install low elsewhere)).2
  let s := (s.1.perform Arena.space s.2 (.install high elsewhere)).2
  (s.1.perform Arena.space s.2 (.remove low)).2

theorem sound_codePage {rest : List UInt8} (h : rest.length = 4078) :
    (Arena.codePage rest).Sound := by
  have hbase : (Arena.codePage rest).base = low := rfl
  have hpages : (Arena.codePage rest).pages.length = 1 := rfl
  have hlow : low.toNat = 0x10000 := by decide
  refine ⟨?_, ?_, ?_⟩
  · rw [hbase, hlow]
    rfl
  · rw [hpages, Arena.codePage, List.length_append, h]
    rfl
  · rw [hbase, hpages, hlow]
    decide

theorem course_undermined (rest : List UInt8) :
    ∃ ds, Course Arena.space .amd64 (.codePage rest) ds (undermined rest).1 (undermined rest).2 :=
  ⟨_, .called (.remove low) (.called (.install high elsewhere)
    (.called (.install low elsewhere) .start rfl) rfl) rfl⟩

set_option maxRecDepth 10000 in
theorem hooks_undermined (rest : List UInt8) :
    (undermined rest).1.hooks =
      [⟨high, elsewhere, [0, 0, 0, 0, 2, 0, 0, 0, 0, 0, 15, 16, 17, 18], ⟨1⟩,
        [(low, .readExecute)]⟩] := by
  cbv

set_option maxRecDepth 10000 in
theorem pages_undermined (rest : List UInt8) :
    (undermined rest).2.base = low ∧
      (undermined rest).2.pages = [some ⟨.readExecute, false⟩] := by
  constructor <;> cbv

set_option maxRecDepth 10000 in
theorem byteAt_removeEach_undermined (rest : List UInt8) :
    (removeEach Arena.space [high] (undermined rest).1 (undermined rest).2).2.2.byteAt 0x10004 = 0 := by
  cbv

theorem granted_undermined (rest : List UInt8) :
    Granted Arena.space [high] (undermined rest).1 (undermined rest).2 := by
  refine ⟨?_, trivial⟩
  intro h start stop hh hspan
  rw [hook?, hooks_undermined] at hh
  cases hh
  have hpage : Page.span high 14 = .ok (low, .ofNat 0x11000) := by cbv
  cases hpage.symm.trans hspan
  generalize hw : (undermined rest).2 = w
  obtain ⟨hbase, hpages⟩ := pages_undermined rest
  rw [hw] at hbase hpages
  cases w
  cases hbase
  cases hpages
  cbv

theorem removeEach_restores_iff_undermined :
    ∃ ds i w ds' i' w', Course Arena.space .amd64 (.codePage (List.replicate 4078 0)) ds i w ∧
      removeEach Arena.space [high] i w = (.ok (), i', w') ∧ i'.hooks = [] ∧
      ¬ TopFirst .amd64 (ds ++ ds') 0x10004 ∧
      Arena.view.byte w' 0x10004 ≠ Arena.view.byte (.codePage (List.replicate 4078 0)) 0x10004 := by
  have hsound := sound_codePage (List.length_replicate (n := 4078) (a := 0))
  generalize List.replicate 4078 (0 : UInt8) = rest at hsound ⊢
  obtain ⟨ds, hcourse⟩ := course_undermined rest
  have hperm : [high].Perm ((undermined rest).1.hooks.map (·.target)) := by
    rw [hooks_undermined]
    exact List.Perm.refl _
  obtain ⟨ds', i', w', heach, _, hnone, hplaces⟩ :=
    removeEach_restores_iff Arena.view hsound hcourse hperm (granted_undermined rest)
  have hlost : Arena.view.byte w' 0x10004 ≠ Arena.view.byte (.codePage rest) 0x10004 := by
    have hleft := byteAt_removeEach_undermined rest
    rw [heach] at hleft
    have hfirst : (Arena.codePage rest).byteAt 0x10004 = 5 := by cbv
    change w'.byteAt 0x10004 ≠ (Arena.codePage rest).byteAt 0x10004
    rw [hleft, hfirst]
    decide
  refine ⟨ds, _, _, ds', i', w', hcourse, heach, hnone, ?_, hlost⟩
  intro htop
  exact hlost ((hplaces 0x10004).2 htop)

end Interceptor

end Grapnel
