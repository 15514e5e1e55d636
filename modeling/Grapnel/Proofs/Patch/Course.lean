import Grapnel.Proofs.Patch.Call

namespace Grapnel

variable {W : Type} {space : CodeSpace W} {arch : Architecture} {w₀ w : W} {ds : List Deed}
  {i : Interceptor}

/-- Calls from a new interceptor on, with their deeds. -/
inductive Course (space : CodeSpace W) (arch : Architecture) (w₀ : W) :
    List Deed → Interceptor → W → Prop where
  | start : Course space arch w₀ [] (.create arch) w₀
  | called {ds : List Deed} {i i' : Interceptor} {w w' : W} {answer : Except HookFault Bool}
      (call : InterceptorCall) : Course space arch w₀ ds i w →
      i.perform space w call = (answer, i', w') →
      Course space arch w₀ (ds ++ i.deeds call answer i') i' w'

namespace Deed

def hook : Deed → Hook
  | .put h => h
  | .taken h _ => h

/-- What was written. -/
def content (arch : Architecture) : Deed → List UInt8
  | .put h => arch.jump h.detour
  | .taken h _ => h.displaced

def put? : Deed → Option Hook
  | .put h => some h
  | .taken _ _ => none

/-- The last deed over a place. -/
def LastOver (arch : Architecture) (ds : List Deed) (place : Nat) (d : Deed) : Prop :=
  ∃ before after, ds = before ++ d :: after ∧ d.hook.Covers arch place ∧
    ∀ e ∈ after, ¬ e.hook.Covers arch place

end Deed

theorem filter_bne_of_nodup {α β : Type} [DecidableEq β] (key : α → β) {below above : List α} {a : α}
    (h : ((below ++ a :: above).map key).Nodup) :
    (below ++ a :: above).filter (fun b => key b != key a) = below ++ above := by
  rw [List.map_append, List.map_cons, List.nodup_append, List.nodup_cons] at h
  obtain ⟨_, ⟨habove, _⟩, hbelow⟩ := h
  rw [List.filter_append, List.filter_cons_of_neg (by simp)]
  congr 1
  · rw [List.filter_eq_self]
    intro b hb
    exact bne_iff_ne.2 (hbelow _ (List.mem_map_of_mem hb) _ List.mem_cons_self)
  · rw [List.filter_eq_self]
    intro b hb
    apply bne_iff_ne.2
    intro heq
    exact habove (heq ▸ List.mem_map_of_mem hb)

/-- The tables after some deeds. -/
structure Tables (arch : Architecture) (ds : List Deed) (i : Interceptor) : Prop where
  arch_eq : i.arch = arch
  targets : (i.hooks.map (·.target)).Nodup
  placed : ∀ h ∈ i.hooks, h.Placed arch
  /-- Each hook has its trampoline, with the displaced bytes and the way back. -/
  entries : i.trampolines =
    i.hooks.map fun h => (h.trampoline, Interceptor.pageOf (h.detourless arch))
  standing : i.hooks.Sublist (ds.filterMap Deed.put?)
  issued : (ds.filterMap Deed.put?).map (·.trampoline.number) = List.range i.nextTrampoline

namespace Tables

/-- No two hooks that were ever put have had the same trampoline. -/
theorem numbers_nodup (h : Tables arch ds i) :
    ((ds.filterMap Deed.put?).map (·.trampoline)).Nodup := by
  have hnumbers : ((ds.filterMap Deed.put?).map (·.trampoline.number)).Nodup := by
    rw [h.issued]
    exact List.nodup_range
  apply List.Nodup.of_map Trampoline.number
  rwa [List.map_map]

theorem fresh (h : Tables arch ds i) :
    ∀ k ∈ ds.filterMap Deed.put?, k.trampoline ≠ ⟨i.nextTrampoline⟩ := by
  intro k hk heq
  have hnumber : k.trampoline.number ∈ List.range i.nextTrampoline := by
    rw [← h.issued]
    exact List.mem_map_of_mem hk
  rw [heq, List.mem_range] at hnumber
  exact Nat.lt_irrefl _ hnumber

theorem trampolines_nodup (h : Tables arch ds i) : (i.hooks.map (·.trampoline)).Nodup :=
  (h.standing.map _).nodup h.numbers_nodup

theorem forget_hooks {h : Hook} {below above : List Hook} (ht : Tables arch ds i)
    (hsplit : i.hooks = below ++ h :: above) : (i.forget h).hooks = below ++ above := by
  have htargets := ht.targets
  rw [hsplit] at htargets
  rw [Interceptor.forget, hsplit]
  exact filter_bne_of_nodup Hook.target htargets

theorem grown {h : Hook} (ht : Tables arch ds i) (hfree : i.hook? h.target = none)
    (hplaced : h.Placed i.arch) (hnumber : h.trampoline = ⟨i.nextTrampoline⟩) :
    Tables arch (ds ++ [.put h]) (i.grown h) := by
  have hputs : (ds ++ [Deed.put h]).filterMap Deed.put? = ds.filterMap Deed.put? ++ [h] := by
    rw [List.filterMap_append]
    rfl
  refine ⟨ht.arch_eq, ?_, ?_, ?_, ?_, ?_⟩
  · rw [Interceptor.grown, List.map_append, List.nodup_append]
    refine ⟨ht.targets, List.nodup_singleton _, ?_⟩
    intro target hmem target' hmem' heq
    rw [List.map_singleton, List.mem_singleton] at hmem'
    rw [heq, hmem', List.mem_map] at hmem
    obtain ⟨k, hk, hkt⟩ := hmem
    rw [Interceptor.hook?, List.find?_eq_none] at hfree
    exact hfree k hk (beq_iff_eq.2 hkt)
  · intro k hk
    rw [Interceptor.grown, List.mem_append, List.mem_singleton] at hk
    rcases hk with hk | rfl
    · exact ht.placed k hk
    · exact ht.arch_eq ▸ hplaced
  · rw [Interceptor.grown, ht.entries, ht.arch_eq, List.map_append]
    rfl
  · rw [hputs]
    exact ht.standing.append (List.Sublist.refl _)
  · rw [hputs, List.map_append, ht.issued, List.map_singleton, hnumber, Interceptor.grown,
      List.range_succ]

theorem forget {h : Hook} {below above : List Hook} (ht : Tables arch ds i)
    (hsplit : i.hooks = below ++ h :: above) : Tables arch (ds ++ [.taken h above]) (i.forget h) := by
  have hhooks := ht.forget_hooks hsplit
  have hsub : (i.forget h).hooks.Sublist i.hooks := List.filter_sublist
  have hputs : (ds ++ [Deed.taken h above]).filterMap Deed.put? = ds.filterMap Deed.put? := by
    rw [List.filterMap_append]
    exact List.append_nil _
  refine ⟨ht.arch_eq, ht.targets.sublist (hsub.map _), ?_, ?_, ?_, ?_⟩
  · intro k hk
    exact ht.placed k (hsub.subset hk)
  · have hnodup := ht.trampolines_nodup
    rw [hsplit] at hnodup
    rw [hhooks, ← filter_bne_of_nodup Hook.trampoline hnodup, ← hsplit, Interceptor.forget,
      ht.entries, List.filter_map]
    rfl
  · rw [hputs]
    exact hsub.trans ht.standing
  · rw [hputs]
    exact ht.issued

end Tables

namespace Course

variable (v : space.View)

theorem tables (hs : v.Sound w₀) (hc : Course space arch w₀ ds i w) :
    v.Sound w ∧ Tables arch ds i := by
  induction hc with
  | start => exact ⟨hs, rfl, List.nodup_nil, nofun, rfl, List.Sublist.slnil, rfl⟩
  | called call _ hcall ih =>
    obtain ⟨hsound, ht⟩ := ih
    obtain ⟨hsound', heffect⟩ := Interceptor.perform_effect v hsound hcall
    refine ⟨hsound', ?_⟩
    generalize Interceptor.deeds .. = new at heffect ⊢
    cases heffect with
    | put hfree hplaced _ _ => exact ht.grown hfree hplaced rfl
    | taken hsplit _ => exact ht.forget hsplit
    | none => exact (List.append_nil _).symm ▸ ht

end Course

namespace Deed

variable {place : Nat} {d e : Deed}

theorem lastOver_concat :
    LastOver arch (ds ++ [e]) place d ↔
      e.hook.Covers arch place ∧ d = e ∨ ¬ e.hook.Covers arch place ∧ LastOver arch ds place d := by
  constructor
  · rintro ⟨before, after, heq, hcovers, hafter⟩
    rcases List.eq_nil_or_concat after with rfl | ⟨after, e', rfl⟩
    · obtain ⟨rfl, hd⟩ := List.append_inj' heq rfl
      cases hd
      exact .inl ⟨hcovers, rfl⟩
    · rw [List.concat_eq_append] at heq hafter
      rw [← List.cons_append, ← List.append_assoc] at heq
      obtain ⟨rfl, he⟩ := List.append_inj' heq rfl
      cases he
      refine .inr ⟨hafter e (List.mem_append_right _ List.mem_cons_self), before, after, rfl, hcovers, ?_⟩
      intro k hk
      exact hafter k (List.mem_append_left _ hk)
  · rintro (⟨hcovers, rfl⟩ | ⟨hnot, before, after, rfl, hcovers, hafter⟩)
    · exact ⟨ds, [], rfl, hcovers, nofun⟩
    · refine ⟨before, after ++ [e], by rw [List.append_assoc, List.cons_append], hcovers, ?_⟩
      intro k hk
      rcases List.mem_append.1 hk with hk | hk
      · exact hafter k hk
      · rw [List.mem_singleton] at hk
        exact hk ▸ hnot

theorem exists_lastOver (h : ∃ d ∈ ds, d.hook.Covers arch place) :
    ∃ d, LastOver arch ds place d := by
  induction ds using List.reverseRecOn with
  | nil =>
    obtain ⟨d, hd, _⟩ := h
    cases hd
  | append_singleton ds e ih =>
    by_cases he : e.hook.Covers arch place
    · exact ⟨e, lastOver_concat.2 (.inl ⟨he, rfl⟩)⟩
    · obtain ⟨d, hd, hcovers⟩ := h
      rcases List.mem_append.1 hd with hd | hd
      · obtain ⟨d', hlast⟩ := ih ⟨d, hd, hcovers⟩
        exact ⟨d', lastOver_concat.2 (.inr ⟨he, hlast⟩)⟩
      · rw [List.mem_singleton] at hd
        exact absurd (hd ▸ hcovers) he

end Deed

/-- What a place holds, by the deeds over it. -/
structure Told (arch : Architecture) (before : UInt8) (ds : List Deed) (i : Interceptor)
    (place : Nat) (b : UInt8) : Prop where
  untouched : (∀ d ∈ ds, ¬ d.hook.Covers arch place) → b = before
  last : ∀ d, Deed.LastOver arch ds place d →
    (d.content arch)[place - d.hook.target.toNat]? = some b
  /-- A hook that was put there last still stands. -/
  stands : ∀ h, Deed.LastOver arch ds place (.put h) → h ∈ i.hooks

theorem Told.write {before b b' : UInt8} {f : Nat → UInt8} {e : Deed} {place : Nat}
    {i' : Interceptor} (h : Told arch before ds i place b)
    (hlength : (e.content arch).length = arch.jumpSize) (hb : f place = b)
    (hb' : b' = overlay f e.hook.target.toNat (e.content arch) place)
    (hput : ∀ k, e = .put k → k ∈ i'.hooks)
    (hkeeps : ¬ e.hook.Covers arch place → ∀ k ∈ i.hooks, k.Covers arch place → k ∈ i'.hooks) :
    Told arch before (ds ++ [e]) i' place b' := by
  have hcontent (hcovers : e.hook.Covers arch place) :
      (e.content arch)[place - e.hook.target.toNat]? = some b' := by
    rw [hb']
    exact getElem?_overlay hcovers.1 (hlength ▸ hcovers.2)
  have hsame (hnot : ¬ e.hook.Covers arch place) : b' = b := by
    rw [hb', overlay_of_outside (hlength.symm ▸ hnot), hb]
  refine ⟨?_, ?_, ?_⟩
  · intro huntouched
    rw [hsame (huntouched e (List.mem_append_right _ List.mem_cons_self))]
    exact h.untouched fun d hd => huntouched d (List.mem_append_left _ hd)
  · intro d hlast
    rcases Deed.lastOver_concat.1 hlast with ⟨hcovers, rfl⟩ | ⟨hnot, hlast⟩
    · exact hcontent hcovers
    · rw [hsame hnot]
      exact h.last d hlast
  · intro k hlast
    -- `e` has put it, or is not over the place and so leaves it standing
    rcases Deed.lastOver_concat.1 hlast with ⟨_, he⟩ | ⟨hnot, hlast⟩
    · exact hput k he.symm
    · have hk := h.stands k hlast
      obtain ⟨_, _, _, hcovers, _⟩ := hlast
      exact hkeeps hnot k hk hcovers

/-- At any time a place holds what the last deed over it wrote. -/
theorem Course.told (v : space.View) (hs : v.Sound w₀) (hc : Course space arch w₀ ds i w)
    (place : Nat) : Told arch (v.byte w₀ place) ds i place (v.byte w place) := by
  induction hc with
  | start =>
    refine ⟨fun _ => rfl, ?_, ?_⟩
    · rintro d ⟨before, after, heq, _⟩
      cases before <;> cases heq
    · rintro h ⟨before, after, heq, _⟩
      cases before <;> cases heq
  | @called ds i i' w w' answer call hc hcall ih =>
    obtain ⟨hsound, ht⟩ := hc.tables v hs
    obtain ⟨_, heffect⟩ := Interceptor.perform_effect v hsound hcall
    generalize Interceptor.deeds .. = new at heffect ⊢
    cases heffect with
    | put hfree hplaced _ hbyte =>
      rw [ht.arch_eq] at hbyte
      apply ih.write (e := .put _) (Architecture.length_jump ..) rfl (congrFun hbyte place)
      · intro k hk
        cases hk
        exact List.mem_append_right _ List.mem_cons_self
      · intro _ k hk _
        exact List.mem_append_left _ hk
    | @taken h below above _ hsplit hbyte =>
      have hh : h ∈ i.hooks := hsplit ▸ List.mem_append_right _ List.mem_cons_self
      apply ih.write (e := .taken h above) (ht.placed h hh).length rfl (congrFun hbyte place)
      · intro k hk
        cases hk
      · intro hnot k hk hcovers
        rw [ht.forget_hooks hsplit]
        rw [hsplit, List.mem_append, List.mem_cons] at hk
        rcases hk with hk | rfl | hk
        · exact List.mem_append_left _ hk
        · exact absurd hcovers hnot
        · exact List.mem_append_right _ hk
    | none hbyte =>
      rw [List.append_nil, congrFun hbyte place]
      exact ih

end Grapnel
