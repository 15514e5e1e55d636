import Grapnel.Proofs.Task.Tick

namespace Grapnel

namespace Scheduler

variable {W Thread Function Value Error : Type} {s s' : Scheduler Thread Function Value}
  {t : Task Thread Function Value} {ts : List (Task Thread Function Value)} {id : TaskId}
  {e : Event W Thread Function Value Error} {es : List (Event W Thread Function Value Error)}

/-- The task was scheduled, has not been cancelled and has not begun to run. -/
inductive Open (s : Scheduler Thread Function Value) (id : TaskId) : Prop where
  | suspended : s.state? id = some .suspended →
      (∃ t ∈ s.tasks, t.id = id ∧ t.cancelled = false) → Open s id
  | ready : s.state? id = some .ready → Open s id

theorem state_suspended (h : s.state? id = some .suspended) :
    id ∉ s.ready ∧ s.running ≠ some id := by
  unfold state? at h
  split at h
  · cases h
  split at h
  · cases h
  split at h
  · cases h
  · exact ⟨‹_›, ‹_›⟩

theorem state_ready (h : s.state? id = some .ready) : id ∈ s.ready := by
  unfold state? at h
  split at h
  · cases h
  split at h
  · cases h
  split at h
  · assumption
  split at h <;> cases h

theorem cancelIn_cancelled (hn : (ts.map (·.id)).Nodup) (ht : t ∈ (cancelIn id ts).2)
    (hid : t.id = id) : t.cancelled = true := by
  induction ts with
  | nil => exact nomatch ht
  | cons u ts ih =>
    rw [List.map_cons, List.nodup_cons] at hn
    rw [cancelIn] at ht
    split at ht
    · next hu =>
      rcases List.mem_cons.1 ht with rfl | ht
      · rfl
      · exact absurd (List.mem_map.2 ⟨t, ht, hid.trans hu.1.symm⟩) hn.1
    · next hu =>
      rcases List.mem_cons.1 ht with rfl | ht
      · exact eq_true_of_ne_false fun hc => hu ⟨hid, hc⟩
      · exact ih hn.2 ht

theorem Sound.gone_cancel (h : Sound s) (hs : s.state? id = some .suspended) (ht : t ∈ s.tasks)
    (hid : t.id = id) : Gone id (s.cancel id).2 where
  old := hid ▸ (h.pending_old t.id (mem_pending.2 ⟨t, ht, rfl⟩)).2
  not_ready := (state_suspended hs).1
  cancelled _ hu hid := cancelIn_cancelled h.nodup hu hid

theorem Sound.cancel_ready (h : Sound s) (hr : id ∈ s.ready) : s.cancel id = (false, s) := by
  have hf : (cancelIn id s.tasks).1 = false := by
    refine eq_false_of_ne_true fun hf => ?_
    obtain ⟨t, ht, hid, _⟩ := cancelIn_found.1 hf
    exact h.ready_apart id (mem_pending.2 ⟨t, ht, hid⟩) hr
  change ((cancelIn id s.tasks).1, { s with tasks := (cancelIn id s.tasks).2 }) = _
  rw [hf, cancelIn_not_found hf]

theorem Step.running (st : Step s e s') :
    (e.scheduler.running = some id → s.running = some id ∨ e.started? = some id) ∧
      (s'.running = some id → e.scheduler.running = some id) := by
  cases st with
  | asked => exact ⟨.inl, fun h => running_grant ▸ h⟩
  | cleared => exact ⟨.inl, nofun⟩
  | took | started | finished => exact ⟨.inr, fun h => h⟩
  | created | resumed | returned => exact ⟨.inl, fun h => h⟩

theorem Gone.absent (h : Gone id s) (hr : s.running ≠ some id) (hf : Follows s es s') :
    ∀ e ∈ es, e.scheduler.running ≠ some id := by
  induction hf with
  | nil => exact fun e he => nomatch he
  | cons st _ ih =>
    obtain ⟨hg, hst⟩ := h.step st
    have he := fun h => (st.running.1 h).elim hr hst
    exact List.forall_mem_cons.2 ⟨he, ih hg (mt st.running.2 he)⟩

/-- A task that a tick has taken begins to run before the tick ends. -/
theorem Follows.starts (hf : Follows s es s') (h : id ∈ s.ready) (hr : s'.ready = []) :
    ∃ e ∈ es, e.started? = some id := by
  induction hf with
  | nil => exact absurd h (hr ▸ List.not_mem_nil)
  | @cons s e s' es s'' st _ ih =>
    suffices hs : id ∈ s'.ready ∨ e.started? = some id by
      rcases hs with hs | hs
      · obtain ⟨e', he', hs⟩ := ih hs hr
        exact ⟨e', List.mem_cons_of_mem _ he', hs⟩
      · exact ⟨e, List.mem_cons_self, hs⟩
    cases st with
    | asked =>
      rw [ready_grant]
      exact .inl h
    | cleared hn | took hn => exact absurd h (hn ▸ List.not_mem_nil)
    | @started n =>
      by_cases hid : id = n
      · exact .inr (congrArg some hid.symm)
      · exact .inl (List.mem_filter.2 ⟨h, decide_eq_true hid⟩)
    | finished | created | resumed | returned => exact .inl h

end Scheduler

namespace Coroutines.Cooperative

open Scheduler

variable {W Thread Function Value Error : Type} {c : Coroutines W Thread Function Value Error}
  {s : Scheduler Thread Function Value} {id : TaskId} {w : W}
  {before after : List (Event W Thread Function Value Error)}

/-- Cancelling an open task succeeds and keeps it from running just when the task is pending. One
that a tick has taken is not found, and runs. -/
theorem cancel_stops_iff (h : c.Cooperative)
    (hr : h.Reaches w (before ++ ⟨s, .asked (.cancel id)⟩ :: after)) (ho : s.Open id) :
    (((s.cancel id).1 = true ∧ ∀ e ∈ after, e.scheduler.running ≠ some id) ↔
      s.state? id = some .suspended) ∧
    (s.state? id = some .ready →
      s.cancel id = (false, s) ∧ ∃ e ∈ after, e.started? = some id) := by
  obtain ⟨hf, hready, _⟩ := hr.follows
  obtain ⟨s₁, hb, hc⟩ := hf.split
  obtain ⟨rfl, ha⟩ : s₁ = s ∧ Follows (s.cancel id).2 after (c.scheduler w) := by
    cases hc with
    | cons st hc => cases st; exact ⟨rfl, hc⟩
  have hs := hb.sound .empty
  refine ⟨⟨fun ⟨hfound, _⟩ => ?_, fun hsus => ?_⟩, fun hrdy => ?_⟩
  · cases ho with
    | suspended h => exact h
    | ready h =>
      rw [hs.cancel_ready (state_ready h)] at hfound
      cases hfound
  · cases ho with
    | suspended _ hlive =>
      obtain ⟨t, ht, hid, hc⟩ := hlive
      exact ⟨cancelIn_found.2 ⟨t, ht, hid, hc⟩,
        (hs.gone_cancel hsus ht hid).absent (state_suspended hsus).2 ha⟩
    | ready h => exact absurd (state_ready h) (state_suspended hsus).1
  · have hm := state_ready hrdy
    have hcan := hs.cancel_ready hm
    rw [hcan] at ha
    exact ⟨hcan, ha.starts hm hready⟩

/-- The second of two rivals is taken and does not run yet. -/
def rivalTaken : Scheduler Bool Unit Nat :=
  { rivals with tasks := [], ready := [⟨2⟩], running := some ⟨1⟩ }

theorem cancel_stops_iff_rivals : ∃ before after,
    rivalCooperative.Reaches (rivalCooperative.traced.runReady 0 (rivals, rivalsAsked)).2.1
      (before ++ ⟨rivalTaken, .asked (.cancel ⟨2⟩)⟩ :: after) ∧
    rivalTaken.state? ⟨2⟩ = some .ready ∧ rivalTaken.cancel ⟨2⟩ = (false, rivalTaken) ∧
    ∃ e ∈ after, e.started? = some ⟨2⟩ := by
  have h : rivalCooperative.Reaches (rivalCooperative.traced.runReady 0 (rivals, rivalsAsked)).2.1
      ((rivalCooperative.traced.runReady 0 (rivals, rivalsAsked)).2.2.take 5 ++
        ⟨rivalTaken, .asked (.cancel ⟨2⟩)⟩ ::
          (rivalCooperative.traced.runReady 0 (rivals, rivalsAsked)).2.2.drop 6) :=
    rivals_reached.tick 0
  exact ⟨_, _, h, rfl, (cancel_stops_iff rivalCooperative h (.ready rfl)).2 rfl⟩

end Coroutines.Cooperative

end Grapnel
