import Grapnel.Proofs.Patch.Teardown

namespace Grapnel

variable {W : Type} {space : CodeSpace W} {v : space.View} {arch : Architecture} {w₀ w : W}
  {ds : List Deed} {i : Interceptor}

theorem Hook.Apart.not_covers {h k : Hook} {place : Nat} (hapart : h.Apart arch k)
    (hcovers : h.Covers arch place) : ¬ k.Covers arch place := by
  intro hk
  rcases hapart with hapart | hapart
  · exact absurd hcovers.2 (Nat.not_lt.2 (Nat.le_trans hapart hk.1))
  · exact absurd hk.2 (Nat.not_lt.2 (Nat.le_trans hapart hcovers.1))

namespace Interceptor

/-- A course of reversible calls, after each of which the hooks are apart from each other. -/
inductive Reaches (v : space.View) (arch : Architecture) (w₀ : W) :
    List Deed → Interceptor → W → Prop where
  | start : Reaches v arch w₀ [] (create arch) w₀
  | called {ds : List Deed} {i i' : Interceptor} {w w' : W} {answer : Except HookFault Bool}
      (call : InterceptorCall) : Reaches v arch w₀ ds i w → Reversible v i w call →
      i.perform space w call = (answer, i', w') → i'.hooks.Pairwise (Hook.Apart arch) →
      Reaches v arch w₀ (ds ++ i.deeds call answer i') i' w'

theorem access_call {i' : Interceptor} {w' : W} {call : InterceptorCall}
    {answer : Except HookFault Bool} (ht : Tables arch ds i) (hs : v.Sound w)
    (hrecorded : ∀ h ∈ i.hooks, h.Recorded arch (v.access w)) (hback : Reversible v i w call)
    (hcall : i.perform space w call = (answer, i', w')) : v.access w' = v.access w := by
  rw [← ht.arch_eq] at hrecorded
  apply access_perform v hs hcall _ hrecorded hback
  intro h hh
  rw [(ht.placed h hh).length, ht.arch_eq]

namespace Reaches

theorem course (hr : Reaches v arch w₀ ds i w) : Course space arch w₀ ds i w := by
  induction hr with
  | start => exact .start
  | called call _ _ hcall _ ih => exact .called call ih hcall

theorem apart (hr : Reaches v arch w₀ ds i w) : i.hooks.Pairwise (Hook.Apart arch) := by
  cases hr with
  | start => exact List.Pairwise.nil
  | called _ _ _ _ hapart => exact hapart

/-- Hooks that are apart go from the top at every place. -/
theorem topFirst (hs : v.Sound w₀) (hr : Reaches v arch w₀ ds i w) (place : Nat) :
    TopFirst arch ds place := by
  induction hr with
  | start => exact nofun
  | called call hr _ hcall _ ih =>
    obtain ⟨hsound, ht⟩ := hr.course.tables v hs
    obtain ⟨_, heffect⟩ := perform_effect v hsound hcall
    generalize deeds .. = new at heffect ⊢
    intro h above hmem hcovers k hk
    rcases List.mem_append.1 hmem with hmem | hmem
    · exact ih h above hmem hcovers k hk
    · cases heffect with
      | put =>
        rw [List.mem_singleton] at hmem
        cases hmem
      | taken hsplit =>
        rw [List.mem_singleton] at hmem
        cases hmem
        -- it was apart from all that stood, and `k` is one of them
        have hapart := hr.apart
        rw [hsplit, List.pairwise_append] at hapart
        exact (List.rel_of_pairwise_cons hapart.2.1 hk).not_covers hcovers
      | none => cases hmem

theorem access (hs : v.Sound w₀) (hr : Reaches v arch w₀ ds i w) :
    v.access w = v.access w₀ ∧ ∀ h ∈ i.hooks, h.Recorded arch (v.access w₀) := by
  induction hr with
  | start => exact ⟨rfl, nofun⟩
  | called call hr hback hcall _ ih =>
    obtain ⟨hsame, hrecorded⟩ := ih
    obtain ⟨hsound, ht⟩ := hr.course.tables v hs
    obtain ⟨_, heffect⟩ := perform_effect v hsound hcall
    rw [← hsame] at hrecorded ⊢
    constructor
    · exact access_call ht hsound hrecorded hback hcall
    · generalize deeds .. = new at heffect
      cases heffect with
      | put =>
        intro h hh
        rcases List.mem_append.1 hh with hh | hh
        · exact hrecorded h hh
        · rw [List.mem_singleton] at hh
          rw [hh, ← ht.arch_eq]
          exact made_recorded v hsound _ _
      | taken => exact fun h hh => hrecorded h (List.mem_of_mem_filter hh)
      | none => exact hrecorded

end Reaches

/-- Over the jump of a hook, the code shows nothing else, and the hooks below show the first bytes. -/
theorem Reaches.window (hs : v.Sound w₀) (hr : Reaches v arch w₀ ds i w) {h : Hook}
    (hh : h ∈ i.hooks) :
    bytesFrom (v.byte w) h.target.toNat arch.jumpSize = arch.jump h.detour ∧
      h.displaced = bytesFrom (v.byte w₀) h.target.toNat arch.jumpSize := by
  obtain ⟨_, ht⟩ := hr.course.tables v hs
  obtain ⟨below, above, hsplit⟩ := List.append_of_mem hh
  have hapart := hr.apart
  rw [hsplit, List.pairwise_append] at hapart
  obtain ⟨_, habove, hbelow⟩ := hapart
  constructor
  · have hjump : bytesFrom (overlay (layers arch (v.byte w₀) below) h.target.toNat
        (arch.jump h.detour)) h.target.toNat (arch.jump h.detour).length = arch.jump h.detour :=
      bytesFrom_overlay
    rw [Architecture.length_jump] at hjump
    rw [← hjump]
    apply bytesFrom_congr
    intro place hlow hhigh
    have hl := hr.course.layered v hs (hr.topFirst hs place)
    rw [hl.shown, hsplit, layers_append]
    have hnot : ∀ k ∈ above, ¬ k.Covers arch place := fun k hk =>
      (List.rel_of_pairwise_cons habove hk).not_covers ⟨hlow, hhigh⟩
    exact layers_of_not_covers hnot
  · apply List.ext_getElem?
    intro k
    have hright := getElem?_bytesFrom (v.byte w₀) h.target.toNat arch.jumpSize k
    rw [List.getElem?_toArray] at hright
    rw [hright]
    split
    · next hk =>
      have hcovers : h.Covers arch (h.target.toNat + k) :=
        ⟨Nat.le_add_right _ _, Nat.add_lt_add_left hk _⟩
      have hl := hr.course.layered v hs (hr.topFirst hs (h.target.toNat + k))
      have hdisplaced := hl.displaced below h above hsplit hcovers
      rw [Nat.add_sub_cancel_left] at hdisplaced
      rw [hdisplaced, layers_of_not_covers]
      intro j hj hcovers'
      exact (hbelow j hj h List.mem_cons_self).not_covers hcovers' hcovers
    · next hk =>
      apply List.getElem?_eq_none
      rw [(ht.placed h hh).length]
      exact Nat.le_of_not_lt hk

end Interceptor

/-- Two pages, of which only the second can be written. -/
def Arena.border (content : List UInt8) : Arena where
  base := .ofNat 0x10000
  pages := [some ⟨.readExecute, false⟩, some ⟨.all, false⟩]
  content := content

namespace Interceptor

end Interceptor

end Grapnel
