import Grapnel.Proofs.Task.Trace

namespace Grapnel

open Scheduler

namespace Coroutines.Cooperative

variable {W Thread Function Value Error : Type} {c : Coroutines W Thread Function Value Error}
  {task : Task Thread Function Value} {t : Thread} {now : Nat} {w : W} {report : TickReport Error}
  {es : List (Event W Thread Function Value Error)}

variable {h : c.Cooperative} {block : List (Event W Thread Function Value Error)}
  {blocks : List (List (Event W Thread Function Value Error))}
  {due : List (Task Thread Function Value)}

theorem Drives.started (hd : h.Drives now task t w es) : es.filterMap Event.started? = [] := by
  cases hd with
  | refused => rfl
  | resumed =>
    rw [resumption, List.filterMap_cons_none rfl, List.filterMap_append,
      Event.ofRequests_quiet fun _ _ => rfl]
    rfl

theorem Handles.started (hh : h.Handles now task block) :
    block.filterMap Event.started? = [task.id] := by
  cases hh with
  | @mk w es w' hr hrn hr' =>
    have hes : es.filterMap Event.started? = [] := by
      cases hrn with
      | thread _ hd | made _ _ hd => exact hd.started
      | unmade => rfl
    have hst : Event.started? (⟨c.scheduler w, .stored w⟩ : Event W Thread Function Value Error) =
        some task.id := hr
    rw [List.filterMap_cons_some hst, List.filterMap_append, hes]
    simp [Event.started?, hr']

theorem Drives.faulted (hd : h.Drives now task t w es)
    (hr : (c.scheduler w).running = some task.id) :
    ((es.filterMap Event.failure?).map Prod.fst).Sublist [task.id] := by
  cases hd with
  | refused => exact List.nil_sublist _
  | @resumed args =>
    have ha := (h.accounts_resume ⟨0, []⟩ t args hr).failures
    rw [List.nil_append, List.nil_append] at ha
    rw [← ha]
    cases (c.resume t args w).1 with
    | ok => exact List.nil_sublist _
    | error => exact .refl _

theorem Handles.faulted (hh : h.Handles now task block) :
    ((block.filterMap Event.failure?).map Prod.fst).Sublist [task.id] := by
  cases hh with
  | @mk w _ _ hr hrn =>
    rw [Event.filterMap_between fun _ _ => rfl]
    cases hrn with
    | thread _ hd => exact hd.faulted hr
    | @made f t w' _ _ hc hd =>
      refine hd.faulted ?_
      have hs := h.scheduler_create f w
      rw [hc] at hs
      exact hs ▸ hr
    | unmade => simp [Event.failure?, hr]

theorem started_flatten (hh : List.Forall₂ (h.Handles now) due blocks) :
    blocks.flatten.filterMap Event.started? = due.map (·.id) := by
  induction hh with
  | nil => rfl
  | cons hh _ ih => rw [List.flatten_cons, List.filterMap_append, hh.started, ih]; rfl

theorem faulted_flatten (hh : List.Forall₂ (h.Handles now) due blocks) :
    ((blocks.flatten.filterMap Event.failure?).map Prod.fst).Sublist (due.map (·.id)) := by
  induction hh with
  | nil => exact .refl _
  | cons hh _ ih =>
    rw [List.flatten_cons, List.filterMap_append, List.map_append, List.map_cons]
    exact hh.faulted.append ih

/-- A tick runs the tasks that are due when it starts, each once and in order, and leaves the others
and what is scheduled meanwhile. -/
structure Ticks (h : c.Cooperative) (now : Nat) (w : W)
    (events : List (Event W Thread Function Value Error)) (due : List (Task Thread Function Value))
    (blocks : List (List (Event W Thread Function Value Error))) : Prop where
  same : ∃ taken, taken.started? = (c.scheduler w).running ∧
    h.traced.runReady now (w, events) =
      ((c.runReady now w).1, (c.runReady now w).2, events ++ taken :: blocks.flatten)
  handled : List.Forall₂ (h.Handles now) due blocks
  started : blocks.flatten.filterMap Event.started? = due.map (·.id)
  resumed : (c.runReady now w).1.resumed = blocks.flatten.countP Event.isResumed
  failures : (c.runReady now w).1.failures = blocks.flatten.filterMap Event.failure?
  failed_once : ((c.runReady now w).1.failures.map Prod.fst).Sublist (due.map (·.id))
  pending : (c.scheduler (c.runReady now w).2).tasks.map Task.live =
    ((c.scheduler w).tasks.filter fun t => !t.cancelled && now < t.due) ++
      scheduledBy (c.scheduler w).nextId (blocks.flatten.filterMap Event.request?)
  cancelled : ∀ t ∈ (c.scheduler (c.runReady now w).2).tasks, t.cancelled = true →
    .cancel t.id ∈ blocks.flatten.filterMap Event.request?

/-- Worlds that are reached from one with an empty scheduler, by requests, ticks and whatever leaves
the scheduler alone. -/
inductive Reaches (h : c.Cooperative) : W → List (Event W Thread Function Value Error) → Prop where
  | start : c.scheduler v = .empty → Reaches h v []
  | ask (r : Request Thread Function Value) : Reaches h v events →
      Reaches h (c.setScheduler ((c.scheduler v).grant r) v)
        (events ++ [⟨c.scheduler v, .asked r⟩])
  | clear : Reaches h v events →
      Reaches h (c.setScheduler (c.scheduler v).clear v) (events ++ [⟨c.scheduler v, .cleared⟩])
  | tick (time : Nat) : Reaches h v events →
      Reaches h (h.traced.runReady time (v, events)).2.1 (h.traced.runReady time (v, events)).2.2
  | idle : Reaches h v events → c.scheduler v' = c.scheduler v → Reaches h v' events

theorem loop_runReady (h : c.Cooperative) (now : Nat) (w : W)
    (es : List (Event W Thread Function Value Error)) :
    ∃ blocks,
      h.traced.runReady now (w, es) = ((c.runReady now w).1, (c.runReady now w).2,
        es ++ ⟨((c.scheduler w).takeReady now).2,
          .stored (c.setScheduler ((c.scheduler w).takeReady now).2 w)⟩ :: blocks.flatten) ∧
      h.Loop now ((c.scheduler w).takeReady now).1 blocks ⟨0, []⟩
        (c.setScheduler ((c.scheduler w).takeReady now).2 w) (c.runReady now w) := by
  have hd : ∀ t ∈ ((c.scheduler w).takeReady now).1, t.due ≤ now := by
    intro t ht
    rw [takeReady_due, List.mem_filter, Bool.and_eq_true, decide_eq_true_eq] at ht
    exact ht.2.2
  obtain ⟨blocks, hb, hl⟩ := h.loop_runTasks ⟨0, []⟩
    (c.setScheduler ((c.scheduler w).takeReady now).2 w)
    (es ++ [⟨((c.scheduler w).takeReady now).2,
      .stored (c.setScheduler ((c.scheduler w).takeReady now).2 w)⟩]) hd
  refine ⟨blocks, hb.trans ?_, hl⟩
  rw [List.append_assoc]
  rfl

theorem exists_ticks (h : c.Cooperative) (now : Nat) (w : W)
    (es : List (Event W Thread Function Value Error)) :
    ∃ blocks, h.Ticks now w es
      ((c.scheduler w).tasks.filter fun t => !t.cancelled && t.due ≤ now) blocks := by
  obtain ⟨blocks, hb, hl⟩ := h.loop_runReady now w es
  have hs := hl.settled
  rw [h.scheduler_set] at hs
  have hr := congrArg Scheduler.tasks hs
  change (c.scheduler (c.runReady now w).2).tasks = _ at hr
  rw [takeReady_due] at hl
  have hf : (c.runReady now w).1.failures = blocks.flatten.filterMap Event.failure? :=
    hl.accounts.failures
  refine ⟨blocks, ⟨_, rfl, hb⟩, hl.handled, started_flatten hl.handled,
    hl.accounts.resumed.trans (Nat.zero_add _), hf, hf ▸ faulted_flatten hl.handled, ?_, ?_⟩
  · have ht := congrArg (List.map Task.live) hr
    rw [live_grantAll] at ht
    refine ht.trans (congrArg (· ++ _) ?_)
    refine (congrArg _ (takeReady_tasks ..)).trans ?_
    refine (List.map_congr_left fun t ht => ?_).trans (List.map_id _)
    rw [List.mem_filter, Bool.and_eq_true, Bool.not_eq_true'] at ht
    exact Task.live_of_not_cancelled ht.2.1
  · intro t ht hc
    rw [hr] at ht
    refine (mem_grantAll ht hc).resolve_left fun ht => ?_
    have hm : t ∈ ((c.scheduler w).takeReady now).2.tasks := ht
    rw [takeReady_tasks, List.mem_filter, hc] at hm
    exact nomatch hm.2

theorem Reaches.follows (hr : h.Reaches w es) :
    Follows .empty es (c.scheduler w) ∧ (c.scheduler w).ready = [] ∧
      (c.scheduler w).running = none := by
  induction hr with
  | start hs => rw [hs]; exact ⟨.nil, rfl, rfl⟩
  | ask r hr ih =>
    rw [h.scheduler_set, ready_grant, running_grant]
    exact ⟨ih.1.append (.cons (.asked r) .nil), ih.2⟩
  | clear hr ih =>
    rw [h.scheduler_set]
    exact ⟨ih.1.append (.cons (.cleared ih.2.1) .nil), rfl, rfl⟩
  | idle hr hs ih => rwa [hs]
  | @tick w es now hr ih =>
    obtain ⟨hf, hrd, hrun⟩ := ih
    obtain ⟨blocks, hb, hl⟩ := h.loop_runReady now w es
    have hs := hf.sound .empty
    rw [hb]
    refine ⟨hf.append (.cons (.took hrd hrun) ?_), ?_, ?_⟩
    · have hfol := hl.follows
      rw [h.scheduler_set] at hfol
      refine hfol ?_ (fun id hid => ?_) hrun
      · rw [takeReady_due]
        exact hs.nodup.sublist (List.filter_sublist.map _)
      · rw [takeReady_ready]
        exact List.mem_append_right _ hid
    · refine List.eq_nil_iff_forall_not_mem.2 fun id hid => ?_
      obtain ⟨hm, hn⟩ := (hl.ready id).1 hid
      rw [h.scheduler_set, takeReady_ready, hrd] at hm
      exact hn hm
    · exact hl.running (by rw [h.scheduler_set]; exact hrun)

/-- From every world a tick does what it is to do; in a history, no task begins to run twice, and
what is due was scheduled as it is. -/
theorem runReady_exact (h : c.Cooperative) (now : Nat) (w : W)
    (events : List (Event W Thread Function Value Error)) :
    ∃ blocks,
      h.Ticks now w events
        ((c.scheduler w).tasks.filter fun t => !t.cancelled && t.due ≤ now) blocks ∧
      (h.Reaches w events →
        ((events ++ blocks.flatten).filterMap Event.started?).Nodup ∧
        ∀ t ∈ (c.scheduler w).tasks.filter fun t => !t.cancelled && t.due ≤ now,
          ∃ e ∈ events, e.Schedules t) := by
  obtain ⟨blocks, ht⟩ := h.exists_ticks now w events
  refine ⟨blocks, ht, fun hr => ⟨?_, fun t hm => ?_⟩⟩
  · obtain ⟨taken, _, hb⟩ := ht.same
    have hn := (hr.tick now).follows.1.nodup_started .empty
    rw [hb] at hn
    refine hn.sublist (List.Sublist.filterMap _ ?_)
    exact (List.Sublist.refl _).append (List.sublist_cons_self _ _)
  · rw [List.mem_filter, Bool.and_eq_true, Bool.not_eq_true'] at hm
    rcases hr.follows.1.origin hm.1 with ho | ho
    · exact nomatch ho
    · rwa [Task.live_of_not_cancelled hm.2.1] at ho

/-- A task that is resumed with `true` cancels the second task. -/
def rival : Coroutines (Scheduler Bool Unit Nat) Bool Unit Nat Unit where
  scheduler s := s
  setScheduler s _ := s
  create _ s := (.error (), s)
  isResumable _ _ := true
  resume t _ s := (.ok (), bif t then (s.cancel ⟨2⟩).2 else s)
  elapsed d := d

def rivalCooperative : rival.Cooperative where
  asks t _ _ := bif t then [.cancel ⟨2⟩] else []
  scheduler_set _ _ := rfl
  scheduler_create _ _ := rfl
  scheduler_resume t _ _ := by cases t <;> rfl

/-- Two tasks that are due at once. -/
def rivals : Scheduler Bool Unit Nat :=
  (Scheduler.empty.grant (.schedule .spawn (.thread true) [] 0 0)).grant
    (.schedule .spawn (.thread false) [] 0 0)

def rivalsAsked : List (Event (Scheduler Bool Unit Nat) Bool Unit Nat Unit) :=
  Event.ofRequests .empty
    [.schedule .spawn (.thread true) [] 0 0, .schedule .spawn (.thread false) [] 0 0]

theorem rivals_reached : rivalCooperative.Reaches rivals rivalsAsked := by
  have h : rivalCooperative.Reaches (Scheduler.empty : Scheduler Bool Unit Nat) [] := .start rfl
  exact (h.ask (.schedule .spawn (.thread true) [] 0 0)).ask
    (.schedule .spawn (.thread false) [] 0 0)

theorem runReady_exact_rivals :
    ∃ blocks, rivalCooperative.Ticks 0 rivals rivalsAsked rivals.tasks blocks ∧
      ((rivalsAsked ++ blocks.flatten).filterMap Event.started?).Nodup := by
  obtain ⟨blocks, ht, hr⟩ := runReady_exact rivalCooperative 0 rivals rivalsAsked
  exact ⟨blocks, ht, (hr rivals_reached).1⟩

end Coroutines.Cooperative

end Grapnel
