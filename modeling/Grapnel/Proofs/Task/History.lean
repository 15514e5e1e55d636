import Grapnel.Proofs.Task.Requests

namespace Grapnel

namespace Scheduler

/-- What happens in a run: requests, schedulers that a tick stores into the world, and what the
coroutines are told and answer. -/
inductive Action (W Thread Function Value Error : Type) where
  | asked (r : Request Thread Function Value)
  | cleared
  | stored (w : W)
  | created (f : Function) (result : Except Error Thread) (w : W)
  | resumed (t : Thread) (args : List Value)
  | returned (result : Except Error Unit)

structure Event (W Thread Function Value Error : Type) where
  scheduler : Scheduler Thread Function Value
  action : Action W Thread Function Value Error

variable {W Thread Function Value Error : Type}

namespace Event

/-- The task that begins to run. -/
def started? (e : Event W Thread Function Value Error) : Option TaskId :=
  match e.action with
  | .stored _ => e.scheduler.running
  | _ => none

def request? (e : Event W Thread Function Value Error) :
    Option (Request Thread Function Value) :=
  match e.action with
  | .asked r => some r
  | _ => none

/-- The task that cannot be made or that fails, with its fault. -/
def failure? (e : Event W Thread Function Value Error) : Option (TaskId × Error) :=
  match e.action with
  | .created _ (.error fault) _ | .returned (.error fault) => e.scheduler.running.map (·, fault)
  | _ => none

def isResumed (e : Event W Thread Function Value Error) : Bool :=
  match e.action with
  | .resumed .. => true
  | _ => false

/-- Requests that are asked one after the other. -/
def ofRequests (s : Scheduler Thread Function Value) :
    List (Request Thread Function Value) → List (Event W Thread Function Value Error)
  | [] => []
  | r :: rs => ⟨s, .asked r⟩ :: ofRequests (s.grant r) rs

/-- The event schedules the task. -/
def Schedules (e : Event W Thread Function Value Error) (t : Task Thread Function Value) : Prop :=
  ∃ r, e.action = .asked r ∧ r.task? e.scheduler.nextId = some t

end Event

/-- One event leads from a scheduler to the next. -/
inductive Step : Scheduler Thread Function Value → Event W Thread Function Value Error →
    Scheduler Thread Function Value → Prop where
  | asked (r : Request Thread Function Value) : Step s ⟨s, .asked r⟩ (s.grant r)
  | cleared : s.ready = [] → Step s ⟨s, .cleared⟩ s.clear
  | took : s.ready = [] → s.running = none →
      Step s ⟨(s.takeReady now).2, .stored w⟩ (s.takeReady now).2
  | started : n ∈ s.ready → s.running = none → Step s ⟨s.start n, .stored w⟩ (s.start n)
  | finished : Step s ⟨s.finish, .stored w⟩ s.finish
  | created : Step s ⟨s, .created f result w⟩ s
  | resumed : Step s ⟨s, .resumed t args⟩ s
  | returned : Step s ⟨s, .returned result⟩ s

inductive Follows : Scheduler Thread Function Value → List (Event W Thread Function Value Error) →
    Scheduler Thread Function Value → Prop where
  | nil : Follows s [] s
  | cons : Step s e s' → Follows s' es s'' → Follows s (e :: es) s''

variable {s s' s'' : Scheduler Thread Function Value} {t u : Task Thread Function Value}
  {e : Event W Thread Function Value Error} {es es' : List (Event W Thread Function Value Error)}
  {id : TaskId}

theorem Follows.append (h : Follows s es s') (h' : Follows s' es' s'') :
    Follows s (es ++ es') s'' := by
  induction h with
  | nil => exact h'
  | cons st _ ih => exact .cons st (ih h')

theorem Follows.split (h : Follows s (es ++ es') s'') :
    ∃ s', Follows s es s' ∧ Follows s' es' s'' := by
  induction es generalizing s with
  | nil => exact ⟨s, .nil, h⟩
  | cons e es ih =>
    cases h with
    | cons st h =>
      obtain ⟨s', h₁, h₂⟩ := ih h
      exact ⟨s', .cons st h₁, h₂⟩

theorem Follows.ofRequests (s : Scheduler Thread Function Value)
    (rs : List (Request Thread Function Value)) :
    Follows s (Event.ofRequests s rs : List (Event W Thread Function Value Error))
      (s.grantAll rs) := by
  induction rs generalizing s with
  | nil => exact .nil
  | cons r rs ih => exact .cons (.asked r) (ih (s.grant r))

def pending (s : Scheduler Thread Function Value) : List TaskId := s.tasks.map (·.id)

theorem pending_schedule (s : Scheduler Thread Function Value) (kind : Task.Kind)
    (body : Task.Body Thread Function) (args : List Value) (now delay : Nat) :
    (s.schedule kind body args now delay).2.pending = s.pending ++ [⟨s.nextId⟩] := by
  simp only [pending, schedule, List.map_append, List.map_cons, List.map_nil]

theorem pending_cancel (s : Scheduler Thread Function Value) (id : TaskId) :
    (s.cancel id).2.pending = s.pending := by
  have h := congrArg (List.map (·.id)) (live_cancelIn id s.tasks)
  simp only [List.map_map] at h
  exact h

theorem mem_pending : id ∈ s.pending ↔ ∃ t ∈ s.tasks, t.id = id := List.mem_map

theorem takeReady_due (s : Scheduler Thread Function Value) (now : Nat) :
    (s.takeReady now).1 = s.tasks.filter fun t => !t.cancelled && t.due ≤ now := by
  simp only [takeReady, List.partition_eq_filter_filter, List.filter_filter]
  exact List.filter_congr fun t _ => Bool.and_comm ..

theorem takeReady_tasks (s : Scheduler Thread Function Value) (now : Nat) :
    (s.takeReady now).2.tasks = s.tasks.filter fun t => !t.cancelled && now < t.due := by
  simp only [takeReady, List.partition_eq_filter_filter, List.filter_filter]
  refine List.filter_congr fun t _ => ?_
  by_cases h : t.due ≤ now
  · simp [h]
  · simp [h, Nat.lt_of_not_le h]

theorem takeReady_ready (s : Scheduler Thread Function Value) (now : Nat) :
    (s.takeReady now).2.ready = s.ready ++ (s.takeReady now).1.map (·.id) := rfl

theorem pending_takeReady (s : Scheduler Thread Function Value) (now : Nat) :
    (s.takeReady now).2.pending.Sublist s.pending := by
  rw [pending, takeReady_tasks]
  exact List.filter_sublist.map _

/-- Numbers are given out once, in order, and a task is pending, or taken, or it runs. -/
structure Sound (s : Scheduler Thread Function Value) : Prop where
  positive : 0 < s.nextId
  ascending : (s.pending.map (·.number)).Pairwise (· < ·)
  pending_old : ∀ id ∈ s.pending, 0 < id.number ∧ id.number < s.nextId
  ready_old : ∀ id ∈ s.ready, 0 < id.number ∧ id.number < s.nextId
  running_old : ∀ id, s.running = some id → 0 < id.number ∧ id.number < s.nextId
  ready_apart : ∀ id ∈ s.pending, id ∉ s.ready
  running_apart : ∀ id ∈ s.pending, s.running ≠ some id

namespace Sound

theorem nodup (h : Sound s) : s.pending.Nodup :=
  (h.ascending.imp Nat.ne_of_lt).of_map _ fun _ _ => mt (congrArg TaskId.number)

theorem task_eq (h : Sound s) (ht : t ∈ s.tasks) (hu : u ∈ s.tasks) (hid : t.id = u.id) :
    t = u :=
  List.inj_on_of_nodup_map h.nodup ht hu hid

theorem empty : Sound (empty : Scheduler Thread Function Value) := by
  constructor <;> simp [Scheduler.empty, pending]

theorem schedule (h : Sound s) (kind : Task.Kind) (body : Task.Body Thread Function)
    (args : List Value) (now delay : Nat) : Sound (s.schedule kind body args now delay).2 where
  positive := Nat.succ_pos _
  ascending := by
    rw [pending_schedule, List.map_append, List.pairwise_append]
    refine ⟨h.ascending, List.pairwise_singleton .., ?_⟩
    simp only [List.mem_map, List.mem_singleton]
    rintro _ ⟨id, hid, rfl⟩ _ ⟨_, rfl, rfl⟩
    exact (h.pending_old id hid).2
  pending_old := by
    rw [pending_schedule]
    intro id hid
    rcases List.mem_append.1 hid with hid | hid
    · exact (h.pending_old id hid).imp_right Nat.lt_succ_of_lt
    · cases List.mem_singleton.1 hid
      exact ⟨h.positive, Nat.lt_succ_self _⟩
  ready_old id hid := (h.ready_old id hid).imp_right Nat.lt_succ_of_lt
  running_old id hid := (h.running_old id hid).imp_right Nat.lt_succ_of_lt
  ready_apart := by
    rw [pending_schedule]
    intro id hid hr
    rcases List.mem_append.1 hid with hid | hid
    · exact h.ready_apart id hid hr
    · cases List.mem_singleton.1 hid
      exact absurd (h.ready_old _ hr).2 (Nat.lt_irrefl _)
  running_apart := by
    rw [pending_schedule]
    intro id hid hr
    rcases List.mem_append.1 hid with hid | hid
    · exact h.running_apart id hid hr
    · cases List.mem_singleton.1 hid
      exact absurd (h.running_old _ hr).2 (Nat.lt_irrefl _)

theorem shrink (h : Sound s) (hn : s'.nextId = s.nextId) (hp : s'.pending.Sublist s.pending)
    (hr : ∀ id ∈ s'.ready, id ∈ s.ready ∨ id ∈ s.pending ∧ id ∉ s'.pending)
    (hq : ∀ id, s'.running = some id → s.running = some id ∨ id ∈ s.ready) : Sound s' where
  positive := hn ▸ h.positive
  ascending := h.ascending.sublist (hp.map _)
  pending_old id hid := hn ▸ h.pending_old id (hp.subset hid)
  ready_old id hid := by
    rw [hn]
    rcases hr id hid with hid | hid
    · exact h.ready_old id hid
    · exact h.pending_old id hid.1
  running_old id hid := by
    rw [hn]
    rcases hq id hid with hid | hid
    · exact h.running_old id hid
    · exact h.ready_old id hid
  ready_apart id hid hrd := by
    rcases hr id hrd with hrd | hrd
    · exact h.ready_apart id (hp.subset hid) hrd
    · exact hrd.2 hid
  running_apart id hid hrun := by
    rcases hq id hrun with hrun | hrun
    · exact h.running_apart id (hp.subset hid) hrun
    · exact h.ready_apart id (hp.subset hid) hrun

theorem takeReady (h : Sound s) (now : Nat) : Sound (s.takeReady now).2 := by
  refine h.shrink rfl (pending_takeReady s now) (fun id hid => ?_) (fun id => .inl)
  rw [takeReady_ready, takeReady_due] at hid
  refine (List.mem_append.1 hid).imp_right fun hid => ?_
  obtain ⟨t, ht, rfl⟩ := List.mem_map.1 hid
  rw [List.mem_filter] at ht
  refine ⟨mem_pending.2 ⟨t, ht.1, rfl⟩, fun hp => ?_⟩
  obtain ⟨u, hu, hid⟩ := mem_pending.1 hp
  rw [takeReady_tasks, List.mem_filter] at hu
  cases h.task_eq hu.1 ht.1 hid
  simp only [Bool.and_eq_true, decide_eq_true_eq] at hu ht
  exact Nat.not_le_of_lt hu.2.2 ht.2.2

theorem step (h : Sound s) (st : Step s e s') : Sound s' := by
  cases st with
  | asked r =>
    cases r with
    | schedule kind body args now delay => exact h.schedule kind body args now delay
    | cancel id =>
      exact h.shrink rfl (pending_cancel s id ▸ .refl _) (fun _ => .inl) (fun _ => .inl)
  | cleared => exact h.shrink rfl (List.nil_sublist _) (fun _ hid => nomatch hid) (fun _ => nofun)
  | took => exact h.takeReady _
  | started hr =>
    refine h.shrink rfl (.refl _) (fun id hid => .inl (List.mem_filter.1 hid).1) ?_
    intro id hid
    cases hid
    exact .inr hr
  | finished => exact h.shrink rfl (.refl _) (fun _ => .inl) (fun _ => nofun)
  | created | resumed | returned => exact h

end Sound

theorem Follows.sound (h : Follows s es s') (hs : Sound s) : Sound s' := by
  induction h with
  | nil => exact hs
  | cons st _ ih => exact ih (hs.step st)

/-- A task that no tick will start any more. -/
structure Gone (id : TaskId) (s : Scheduler Thread Function Value) : Prop where
  old : id.number < s.nextId
  not_ready : id ∉ s.ready
  cancelled : ∀ t ∈ s.tasks, t.id = id → t.cancelled = true

theorem Gone.step (h : Gone id s) (st : Step s e s') : Gone id s' ∧ e.started? ≠ some id := by
  cases st with
  | asked r =>
    refine ⟨⟨Nat.lt_of_lt_of_le h.old nextId_le_grant,
      fun hid => h.not_ready (ready_grant ▸ hid), ?_⟩, nofun⟩
    intro t ht hid
    cases r with
    | schedule =>
      rcases List.mem_append.1 ht with ht | ht
      · exact h.cancelled t ht hid
      · cases List.mem_singleton.1 ht
        cases hid
        exact absurd h.old (Nat.lt_irrefl _)
    | cancel =>
      rcases mem_cancelIn ht with ht | ht
      · exact h.cancelled t ht hid
      · exact ht.2
  | cleared => exact ⟨⟨h.old, List.not_mem_nil, fun t ht => nomatch ht⟩, nofun⟩
  | took _ hrun =>
    refine ⟨⟨h.old, fun hid => ?_, fun t ht hid => ?_⟩, ?_⟩
    · rw [takeReady_ready, takeReady_due] at hid
      rcases List.mem_append.1 hid with hid | hid
      · exact h.not_ready hid
      · obtain ⟨t, ht, rfl⟩ := List.mem_map.1 hid
        rw [List.mem_filter] at ht
        rw [h.cancelled t ht.1 rfl] at ht
        exact nomatch ht.2
    · rw [takeReady_tasks] at ht
      exact h.cancelled t (List.mem_filter.1 ht).1 hid
    · change s.running ≠ some id
      rw [hrun]
      nofun
  | started hr =>
    refine ⟨⟨h.old, fun hid => h.not_ready (List.mem_filter.1 hid).1, h.cancelled⟩, ?_⟩
    intro hid
    cases hid
    exact h.not_ready hr
  | finished => exact ⟨⟨h.old, h.not_ready, h.cancelled⟩, nofun⟩
  | created | resumed | returned => exact ⟨h, nofun⟩

theorem Gone.follows (h : Gone id s) (hf : Follows s es s') :
    ∀ e ∈ es, e.started? ≠ some id := by
  induction hf with
  | nil => exact fun e he => nomatch he
  | cons st _ ih =>
    obtain ⟨hg, hst⟩ := h.step st
    exact List.forall_mem_cons.2 ⟨hst, ih hg⟩

theorem Sound.gone (h : Sound s) (hr : id ∈ s.ready) : Gone id (s.start id) where
  old := (h.ready_old id hr).2
  not_ready hid := absurd rfl (of_decide_eq_true (List.mem_filter.1 hid).2)
  cancelled t ht hid := absurd hr (h.ready_apart id (mem_pending.2 ⟨t, ht, hid⟩))

/-- No task begins to run twice. -/
theorem Follows.nodup_started (h : Follows s es s') (hs : Sound s) :
    (es.filterMap Event.started?).Nodup := by
  induction h with
  | nil => exact List.nodup_nil
  | @cons s e s' es s'' st hf ih =>
    have hn := ih (hs.step st)
    rw [List.filterMap_cons]
    split
    · exact hn
    · next id hid =>
      refine List.nodup_cons.2 ⟨fun hm => ?_, hn⟩
      obtain ⟨e', he', hid'⟩ := List.mem_filterMap.1 hm
      refine Gone.follows (s := s') ?_ hf e' he' hid'
      cases st with
      | started hr => cases hid; exact hs.gone hr
      | took _ hrun => exact nomatch hrun.symm.trans hid
      | asked | cleared | finished | created | resumed | returned => exact nomatch hid

/-- Every pending task was pending before or an event has scheduled it. -/
theorem Follows.origin (h : Follows s es s') (ht : t ∈ s'.tasks) :
    t.live ∈ s.tasks.map Task.live ∨ ∃ e ∈ es, e.Schedules t.live := by
  induction h with
  | nil => exact .inl (List.mem_map_of_mem ht)
  | @cons s e s' es s'' st _ ih =>
    rcases ih ht with h | ⟨e', he', h⟩
    · refine (?_ : _ ∨ e.Schedules t.live).imp_right fun h => ⟨e, List.mem_cons_self, h⟩
      cases st with
      | asked r =>
        rw [live_grant] at h
        refine (List.mem_append.1 h).imp_right fun h => ⟨r, rfl, Option.mem_toList.1 h⟩
      | cleared => exact nomatch h
      | took =>
        rw [takeReady_tasks] at h
        exact .inl (List.map_subset _ (List.filter_subset_self _) h)
      | started | finished | created | resumed | returned => exact .inl h
    · exact .inr ⟨e', List.mem_cons_of_mem _ he', h⟩

end Scheduler

end Grapnel
