import Grapnel.Proofs.Task.Tick

namespace Grapnel

namespace Scheduler

variable {W Thread Function Value Error : Type} {s s' s'' : Scheduler Thread Function Value}
  {id : TaskId} {e : Event W Thread Function Value Error}
  {es : List (Event W Thread Function Value Error)}

inductive Place where
  | pending
  | ready
  | running
  | gone

/-- What is told of a task at a place. -/
def Place.state : Place → Task.State
  | .pending => .suspended
  | .ready => .ready
  | .running => .running
  | .gone => .done

theorem Place.state_injective {p q : Place} : p.state = q.state → p = q := by
  cases p <;> cases q <;> simp [Place.state]

/-- The task is at the place. -/
def Holds (s : Scheduler Thread Function Value) (id : TaskId) : Place → Prop
  | .pending => id ∈ s.pending
  | .ready => id ∈ s.ready
  | .running => s.running = some id
  | .gone => id ∉ s.pending ∧ id ∉ s.ready ∧ s.running ≠ some id

theorem exists_holds (s : Scheduler Thread Function Value) (id : TaskId) : ∃ p, s.Holds id p := by
  by_cases hp : id ∈ s.pending
  · exact ⟨.pending, hp⟩
  by_cases hr : id ∈ s.ready
  · exact ⟨.ready, hr⟩
  by_cases hn : s.running = some id
  · exact ⟨.running, hn⟩
  · exact ⟨.gone, hp, hr, hn⟩

/-- The number was given out. -/
def Old (s : Scheduler Thread Function Value) (id : TaskId) : Prop :=
  0 < id.number ∧ id.number < s.nextId

theorem state?_of_not_old (h : ¬ s.Old id) : s.state? id = none := by
  refine if_pos ?_
  rw [Old, not_and_or, Nat.not_lt, Nat.not_lt, Nat.le_zero] at h
  exact h

theorem state?_of_old (h : s.Old id) : s.state? id =
    if s.running = some id then some .running
    else if id ∈ s.ready then some .ready
    else if id ∈ s.pending then some .suspended
    else some .done := by
  have hold : ¬ (id.number = 0 ∨ s.nextId ≤ id.number) :=
    not_or.2 ⟨Nat.ne_of_gt h.1, Nat.not_le_of_lt h.2⟩
  have hany : (s.tasks.any fun t => t.id = id) = true ↔ id ∈ s.pending := by
    simp only [List.any_eq_true, decide_eq_true_eq, mem_pending]
  simp only [state?, if_neg hold, hany]

theorem isSome_state? : (s.state? id).isSome = true ↔ s.Old id := by
  by_cases h : s.Old id
  · rw [state?_of_old h]
    refine iff_of_true ?_ h
    split
    · rfl
    split
    · rfl
    split <;> rfl
  · rw [state?_of_not_old h]
    exact iff_of_false Bool.false_ne_true h

/-- No task is at two places, or twice at one. -/
structure Apart (s : Scheduler Thread Function Value) : Prop extends Sound s where
  ready_nodup : s.ready.Nodup
  ready_running : ∀ id ∈ s.ready, s.running ≠ some id

namespace Apart

theorem empty : Apart (empty : Scheduler Thread Function Value) :=
  ⟨.empty, List.nodup_nil, fun _ h => nomatch h⟩

theorem nodup_places (h : Apart s) : (s.pending ++ s.ready ++ s.running.toList).Nodup := by
  rw [List.nodup_append, List.nodup_append]
  refine ⟨⟨h.nodup, h.ready_nodup, ?_⟩, ?_, ?_⟩
  · rintro id hp _ hr rfl
    exact h.ready_apart id hp hr
  · cases s.running <;> simp
  · rintro id hm _ hr rfl
    have hr := Option.mem_toList.1 hr
    rcases List.mem_append.1 hm with hm | hm
    · exact h.running_apart id hm hr
    · exact h.ready_running id hm hr

theorem state?_of_holds (h : Apart s) (ho : s.Old id) {p : Place} (hp : s.Holds id p) :
    s.state? id = some p.state := by
  rw [state?_of_old ho]
  cases p with
  | pending =>
    have hp : id ∈ s.pending := hp
    rw [if_neg (h.running_apart id hp), if_neg (h.ready_apart id hp), if_pos hp, Place.state]
  | ready =>
    have hp : id ∈ s.ready := hp
    rw [if_neg (h.ready_running id hp), if_pos hp, Place.state]
  | running =>
    have hp : s.running = some id := hp
    rw [if_pos hp, Place.state]
  | gone => rw [if_neg hp.2.2, if_neg hp.2.1, if_neg hp.1, Place.state]

/-- A task that was scheduled is at one place, and that is what is told of it. -/
theorem place_unique (h : Apart s) (ho : s.Old id) :
    ∃! p, s.Holds id p ∧ s.state? id = some p.state := by
  obtain ⟨p, hp⟩ := exists_holds s id
  have hs := h.state?_of_holds ho hp
  refine ⟨p, ⟨hp, hs⟩, ?_⟩
  rintro q ⟨_, hq⟩
  exact Place.state_injective (Option.some.inj (hq.symm.trans hs))

theorem old_of_state (h : s.state? id = some state) : s.Old id :=
  isSome_state?.1 (by rw [h]; rfl)

theorem holds_of_state (h : Apart s) {p : Place} (hs : s.state? id = some p.state) :
    s.Holds id p := by
  obtain ⟨q, hq⟩ := exists_holds s id
  have hq' := h.state?_of_holds (old_of_state hs) hq
  cases Place.state_injective (Option.some.inj (hs.symm.trans hq'))
  exact hq

theorem step (h : Apart s) (st : Step s e s') : Apart s' := by
  have hs := h.toSound.step st
  cases st with
  | asked r =>
    refine ⟨hs, ?_, ?_⟩
    · rw [ready_grant]
      exact h.ready_nodup
    · rw [ready_grant, running_grant]
      exact h.ready_running
  | cleared => exact ⟨hs, List.nodup_nil, fun _ hid => nomatch hid⟩
  | @took _ now _ hr hrun =>
    refine ⟨hs, ?_, fun id _ => ?_⟩
    · rw [takeReady_ready, hr, takeReady_due]
      exact h.nodup.sublist (List.filter_sublist.map _)
    · change s.running ≠ some id
      rw [hrun]
      nofun
  | @started _ n _ hr =>
    refine ⟨hs, h.ready_nodup.filter _, fun id hid hrun => ?_⟩
    cases hrun
    exact absurd rfl (of_decide_eq_true (List.mem_filter.1 hid).2)
  | finished => exact ⟨hs, h.ready_nodup, fun _ _ => nofun⟩
  | created | resumed | returned => exact h

end Apart

/-- How far a task has come, by what is told of it. -/
def stage : Option Task.State → Nat
  | none => 0
  | some .suspended => 1
  | some .ready => 2
  | some .running => 3
  | some .done => 4

/-- Numbers stay given out, and a task is at no place that lies before the one where it was. -/
structure Advances (s s' : Scheduler Thread Function Value) : Prop where
  nextId : s.nextId ≤ s'.nextId
  pending : ∀ id, s.Old id → id ∈ s'.pending → id ∈ s.pending
  ready : ∀ id, s.Old id → id ∈ s'.ready → id ∈ s.pending ∨ id ∈ s.ready
  running : ∀ id, s.Old id → s'.running = some id →
    id ∈ s.pending ∨ id ∈ s.ready ∨ s.running = some id

namespace Advances

theorem refl : Advances s s :=
  ⟨Nat.le_refl _, fun _ _ h => h, fun _ _ => .inr, fun _ _ h => .inr (.inr h)⟩

theorem old (h : Advances s s') (ho : s.Old id) : s'.Old id :=
  ⟨ho.1, Nat.lt_of_lt_of_le ho.2 h.nextId⟩

theorem trans (h : Advances s s') (h' : Advances s' s'') : Advances s s'' where
  nextId := Nat.le_trans h.nextId h'.nextId
  pending id ho hid := h.pending id ho (h'.pending id (h.old ho) hid)
  ready id ho hid := by
    rcases h'.ready id (h.old ho) hid with hid | hid
    · exact .inl (h.pending id ho hid)
    · exact h.ready id ho hid
  running id ho hid := by
    rcases h'.running id (h.old ho) hid with hid | hid | hid
    · exact .inl (h.pending id ho hid)
    · exact (h.ready id ho hid).imp_right .inl
    · exact h.running id ho hid

theorem stage_le (h : Advances s s') (hs : Apart s) (hs' : Apart s') (id : TaskId) :
    stage (s.state? id) ≤ stage (s'.state? id) := by
  by_cases ho : s.Old id
  · -- where the task is afterwards bounds where it was
    have hpending (hp : id ∈ s.pending) : stage (s.state? id) = 1 := by
      rw [hs.state?_of_holds ho (p := .pending) hp]; rfl
    have hready (hp : id ∈ s.ready) : stage (s.state? id) = 2 := by
      rw [hs.state?_of_holds ho (p := .ready) hp]; rfl
    have hrunning (hp : s.running = some id) : stage (s.state? id) = 3 := by
      rw [hs.state?_of_holds ho (p := .running) hp]; rfl
    obtain ⟨p, hp⟩ := exists_holds s' id
    rw [hs'.state?_of_holds (h.old ho) hp]
    cases p with
    | pending => exact (hpending (h.pending id ho hp)).le
    | ready =>
      rcases h.ready id ho hp with hp | hp
      · exact (hpending hp).trans_le (by decide)
      · exact (hready hp).le
    | running =>
      rcases h.running id ho hp with hp | hp | hp
      · exact (hpending hp).trans_le (by decide)
      · exact (hready hp).trans_le (by decide)
      · exact (hrunning hp).le
    | gone =>
      rcases s.state? id with _ | ⟨_ | _ | _ | _⟩ <;> decide
  · rw [state?_of_not_old ho]
    exact Nat.zero_le _

end Advances

theorem Step.advances (st : Step s e s') : Advances s s' := by
  cases st with
  | asked r =>
    refine ⟨nextId_le_grant, fun id ho hid => ?_, fun id _ hid => ?_, fun id _ hid => ?_⟩
    · cases r with
      | schedule kind body args now delay =>
        rw [grant, pending_schedule] at hid
        rcases List.mem_append.1 hid with hid | hid
        · exact hid
        · cases List.mem_singleton.1 hid
          exact absurd ho.2 (Nat.lt_irrefl _)
      | cancel id' =>
        rwa [grant, pending_cancel] at hid
    · rw [ready_grant] at hid
      exact .inr hid
    · rw [running_grant] at hid
      exact .inr (.inr hid)
  | cleared =>
    exact ⟨Nat.le_refl _, fun _ _ => nofun, fun _ _ => nofun, fun _ _ => nofun⟩
  | @took _ now =>
    refine ⟨Nat.le_refl _, fun id _ hid => (pending_takeReady s now).subset hid,
      fun id _ hid => ?_, fun _ _ hid => .inr (.inr hid)⟩
    rw [takeReady_ready, takeReady_due] at hid
    rcases List.mem_append.1 hid with hid | hid
    · exact .inr hid
    · exact .inl ((List.filter_sublist.map _).subset hid)
  | @started _ n _ hr =>
    refine ⟨Nat.le_refl _, fun _ _ hid => hid, fun _ _ hid => .inr (List.mem_filter.1 hid).1, ?_⟩
    intro id _ hid
    cases hid
    exact .inr (.inl hr)
  | finished => exact ⟨Nat.le_refl _, fun _ _ hid => hid, fun _ _ hid => .inr hid, fun _ _ => nofun⟩
  | created | resumed | returned => exact .refl

namespace Event

/-- The scheduler that an event leaves. -/
def next (e : Event W Thread Function Value Error) : Scheduler Thread Function Value :=
  match e.action with
  | .asked r => e.scheduler.grant r
  | .cleared => e.scheduler.clear
  | _ => e.scheduler

/-- The number that an event gives out. -/
def scheduled? (e : Event W Thread Function Value Error) : Option TaskId :=
  match e.action with
  | .asked (.schedule kind body args now delay) =>
    some (e.scheduler.schedule kind body args now delay).1
  | _ => none

end Event

/-- The schedulers that hold one after the other, the first one at the beginning. -/
def seen (s : Scheduler Thread Function Value) (es : List (Event W Thread Function Value Error)) :
    List (Scheduler Thread Function Value) :=
  s :: es.map Event.next

theorem Step.next_eq (st : Step s e s') : e.next = s' := by
  cases st <;> rfl

theorem Step.scheduler_eq (st : Step s e s') : e.scheduler = s ∨ e.scheduler = s' := by
  cases st with
  | asked | cleared | created | resumed | returned => exact .inl rfl
  | took | started | finished => exact .inr rfl

theorem seen_cons (st : Step s e s') : seen s (e :: es) = s :: seen s' es := by
  rw [seen, seen, List.map_cons, st.next_eq]

theorem Follows.getLast_seen (h : Follows s es s') : (seen s es).getLast? = some s' := by
  induction h with
  | nil => rfl
  | cons st _ ih =>
    rw [seen_cons st, List.getLast?_cons, ih]
    rfl

theorem Follows.seen_apart (h : Follows s es s') (hs : Apart s) : ∀ u ∈ seen s es, Apart u := by
  induction h with
  | nil => exact List.forall_mem_singleton.2 hs
  | cons st _ ih =>
    rw [seen_cons st]
    exact List.forall_mem_cons.2 ⟨hs, ih (hs.step st)⟩

theorem Follows.scheduler_mem_seen (h : Follows s es s') (he : e ∈ es) : e.scheduler ∈ seen s es := by
  induction h with
  | nil => exact nomatch he
  | @cons s e' u es s'' st hf ih =>
    rw [seen_cons st]
    rcases List.mem_cons.1 he with rfl | he
    · rcases st.scheduler_eq with hs | hs
      · rw [hs]
        exact List.mem_cons_self
      · rw [hs]
        exact List.mem_cons_of_mem _ List.mem_cons_self
    · exact List.mem_cons_of_mem _ (ih he)

theorem Follows.advances (h : Follows s es s') :
    (∀ u ∈ seen s es, Advances s u) ∧ (seen s es).Pairwise Advances := by
  induction h with
  | nil => exact ⟨List.forall_mem_singleton.2 .refl, List.pairwise_singleton ..⟩
  | cons st _ ih =>
    obtain ⟨hall, hpair⟩ := ih
    have hlater := fun u hu => st.advances.trans (hall u hu)
    rw [seen_cons st]
    exact ⟨List.forall_mem_cons.2 ⟨.refl, hlater⟩, List.pairwise_cons.2 ⟨hlater, hpair⟩⟩

/-- What is told of a task never goes back. -/
theorem Follows.pairwise_stage (h : Follows s es s') (hs : Apart s) :
    (seen s es).Pairwise fun u v => ∀ id, stage (u.state? id) ≤ stage (v.state? id) := by
  have ha := h.seen_apart hs
  exact h.advances.2.imp_of_mem fun hu hv hadv => hadv.stage_le (ha _ hu) (ha _ hv)

theorem Follows.scheduled_eq (h : Follows s es s') :
    s.nextId ≤ s'.nextId ∧
      (es.filterMap Event.scheduled?).map (·.number) =
        List.range' s.nextId (s'.nextId - s.nextId) := by
  induction h with
  | nil => simp
  | @cons s e u es s'' st _ ih =>
    obtain ⟨hle, ih⟩ := ih
    have hu : u.nextId = s.nextId + (e.scheduled?.toList).length ∧
        e.scheduled?.toList.map (·.number) = List.range' s.nextId e.scheduled?.toList.length := by
      cases st with
      | asked r => cases r <;> exact ⟨rfl, rfl⟩
      | cleared | took | started | finished | created | resumed | returned => exact ⟨rfl, rfl⟩
    have hsplit : (e :: es).filterMap Event.scheduled? =
        e.scheduled?.toList ++ es.filterMap Event.scheduled? := by
      rw [List.filterMap_cons]
      cases e.scheduled? <;> rfl
    refine ⟨by omega, ?_⟩
    rw [hsplit, List.map_append, hu.2, ih, hu.1, List.range'_append_1]
    congr 1
    omega

theorem Follows.mem_scheduled_iff (h : Follows .empty es s') :
    id ∈ es.filterMap Event.scheduled? ↔ s'.Old id := by
  have hmem : id ∈ es.filterMap Event.scheduled? ↔
      id.number ∈ (es.filterMap Event.scheduled?).map (·.number) := by
    refine ⟨List.mem_map_of_mem, fun hm => ?_⟩
    obtain ⟨⟨n⟩, hid, hn⟩ := List.mem_map.1 hm
    cases id
    cases hn
    exact hid
  have hle := h.scheduled_eq.1
  rw [hmem, h.scheduled_eq.2, List.mem_range'_1, Old]
  change 1 ≤ s'.nextId at hle
  change 1 ≤ id.number ∧ id.number < 1 + (s'.nextId - 1) ↔ _
  omega

theorem Follows.nodup_scheduled (h : Follows s es s') : (es.filterMap Event.scheduled?).Nodup := by
  refine List.Nodup.of_map (·.number) ?_
  rw [h.scheduled_eq.2]
  exact List.nodup_range'

theorem Follows.take (h : Follows s es s') {i : Nat} {u : Scheduler Thread Function Value}
    (hu : (seen s es)[i]? = some u) : Follows s (es.take i) u := by
  induction h generalizing i with
  | nil =>
    cases i with
    | zero => cases hu; exact .nil
    | succ => cases hu
  | cons st hf ih =>
    rw [seen_cons st] at hu
    cases i with
    | zero => cases hu; exact .nil
    | succ i => exact .cons st (ih hu)

/-- What is seen of tasks in a history from an empty scheduler to this one. -/
structure Lives (es : List (Event W Thread Function Value Error))
    (s : Scheduler Thread Function Value) : Prop where
  ends : (seen .empty es).getLast? = some s
  /-- Whoever acts sees one of these, coroutines that are being resumed included. -/
  shown : ∀ e ∈ es, e.scheduler ∈ seen .empty es
  distinct : (es.filterMap Event.scheduled?).Nodup
  /-- Something is told of just those tasks that were scheduled until then. -/
  told : ∀ (i : Nat) u, (seen .empty es)[i]? = some u → ∀ id,
    (u.state? id).isSome = true ↔ id ∈ (es.take i).filterMap Event.scheduled?
  once : ∀ u ∈ seen .empty es, (u.pending ++ u.ready ++ u.running.toList).Nodup
  placed : ∀ u ∈ seen .empty es, ∀ id, (u.state? id).isSome = true →
    ∃! p, u.Holds id p ∧ u.state? id = some p.state
  forward : (seen .empty es).Pairwise fun u v => ∀ id, stage (u.state? id) ≤ stage (v.state? id)
  alone : ∀ u ∈ seen .empty es, ∀ id id', u.state? id = some .running →
    u.state? id' = some .running → id = id'

theorem Follows.lives (h : Follows .empty es s) : Lives es s where
  ends := h.getLast_seen
  shown _ := h.scheduler_mem_seen
  distinct := h.nodup_scheduled
  told _ _ hu _ := isSome_state?.trans (h.take hu).mem_scheduled_iff.symm
  once u hu := (h.seen_apart .empty u hu).nodup_places
  placed u hu _ ho := (h.seen_apart .empty u hu).place_unique (isSome_state?.1 ho)
  forward := h.pairwise_stage .empty
  alone u hu id id' hid hid' := by
    have ha := h.seen_apart .empty u hu
    have hrun : u.running = some id := ha.holds_of_state (p := .running) hid
    have hrun' : u.running = some id' := ha.holds_of_state (p := .running) hid'
    exact Option.some.inj (hrun.symm.trans hrun')

theorem Event.ofRequests_running {rs : List (Request Thread Function Value)}
    (he : e ∈ ofRequests s rs) : e.scheduler.running = s.running := by
  induction rs generalizing s with
  | nil => exact nomatch he
  | cons r rs ih =>
    rcases List.mem_cons.1 he with rfl | he
    · rfl
    · rw [ih he, running_grant]

end Scheduler

namespace Coroutines.Cooperative

open Scheduler

variable {W Thread Function Value Error : Type} {c : Coroutines W Thread Function Value Error}

/-- From the moment when its turn begins until it is over, a task is told to be running: to itself
as to the others, between any two requests. -/
inductive Watches (h : c.Cooperative) (now : Nat) (task : Task Thread Function Value) :
    List (Event W Thread Function Value Error) → Prop where
  | mk : h.Runs now task w es → (∀ e ∈ es, e.scheduler.state? task.id = some .running) →
      Watches h now task (⟨c.scheduler w, .stored w⟩ :: (es ++ [⟨c.scheduler w', .stored w'⟩]))

variable {h : c.Cooperative} {task : Task Thread Function Value} {t : Thread} {now : Nat} {w : W}
  {e : Event W Thread Function Value Error}
  {es events block : List (Event W Thread Function Value Error)}
  {due : List (Task Thread Function Value)}
  {blocks : List (List (Event W Thread Function Value Error))}

theorem Drives.running (hd : h.Drives now task t w es) (he : e ∈ es) :
    e.scheduler.running = (c.scheduler w).running := by
  cases hd with
  | refused => exact nomatch he
  | @resumed args =>
    rw [resumption, List.mem_cons, List.mem_append, List.mem_singleton] at he
    rcases he with rfl | he | rfl
    · rfl
    · exact Event.ofRequests_running he
    · change (c.scheduler (c.resume t args w).2).running = _
      rw [h.scheduler_resume, running_grantAll]

theorem Runs.running (hr : h.Runs now task w es) (he : e ∈ es) :
    e.scheduler.running = (c.scheduler w).running := by
  cases hr with
  | thread _ hd => exact hd.running he
  | @made f t w' es _ hc hd =>
    rcases List.mem_cons.1 he with rfl | he
    · rfl
    · have hs := h.scheduler_create f w
      rw [hc] at hs
      rw [hd.running he, hs]
  | unmade =>
    cases List.mem_singleton.1 he
    rfl

theorem Handles.watches (hh : h.Handles now task block) (ha : ∀ e ∈ block, Apart e.scheduler) :
    h.Watches now task block := by
  cases hh with
  | @mk w es w' hr hrn _ =>
    refine .mk hrn fun e he => ?_
    have hs := ha e (List.mem_cons_of_mem _ (List.mem_append_left _ he))
    have hrun : e.scheduler.running = some task.id := (hrn.running he).trans hr
    exact hs.state?_of_holds (hs.running_old _ hrun) (p := .running) hrun

theorem watches_flatten (hh : List.Forall₂ (h.Handles now) due blocks)
    (ha : ∀ e ∈ blocks.flatten, Apart e.scheduler) : List.Forall₂ (h.Watches now) due blocks := by
  induction hh with
  | nil => exact .nil
  | cons hh _ ih =>
    rw [List.flatten_cons] at ha
    exact .cons (hh.watches fun e he => ha e (List.mem_append_left _ he))
      (ih fun e he => ha e (List.mem_append_right _ he))

/-- Between ticks no task is about to run, or runs. -/
theorem Reaches.at_rest (hr : h.Reaches w events) (id : TaskId) :
    (c.scheduler w).state? id ≠ some .ready ∧ (c.scheduler w).state? id ≠ some .running := by
  obtain ⟨hf, hready, hrun⟩ := hr.follows
  have ha := hf.seen_apart .empty _ (List.mem_of_getLast? hf.getLast_seen)
  constructor
  · intro hs
    have hid : id ∈ (c.scheduler w).ready := ha.holds_of_state (p := .ready) hs
    rw [hready] at hid
    exact nomatch hid
  · intro hs
    have hid : (c.scheduler w).running = some id := ha.holds_of_state (p := .running) hs
    rw [hrun] at hid
    exact nomatch hid

/-- In every run of requests and ticks tasks live as they should; a tick is seen to run each of its
tasks in turn, and when it is over none is about to run, or runs. -/
theorem lives_of_reaches (h : c.Cooperative) (hr : h.Reaches w events) :
    Lives events (c.scheduler w) ∧ ∀ now, ∃ blocks,
      h.Ticks now w events ((c.scheduler w).tasks.filter fun t => !t.cancelled && t.due ≤ now)
        blocks ∧
      List.Forall₂ (h.Watches now)
        ((c.scheduler w).tasks.filter fun t => !t.cancelled && t.due ≤ now) blocks ∧
      ∀ id, (c.scheduler (c.runReady now w).2).state? id ≠ some .ready ∧
        (c.scheduler (c.runReady now w).2).state? id ≠ some .running := by
  refine ⟨hr.follows.1.lives, fun now => ?_⟩
  obtain ⟨blocks, ht⟩ := h.exists_ticks now w events
  obtain ⟨taken, _, hsame⟩ := ht.same
  have hnext := hr.tick now
  rw [hsame] at hnext
  refine ⟨blocks, ht, watches_flatten ht.handled fun e he => ?_, hnext.at_rest⟩
  have hf := hnext.follows.1
  refine hf.seen_apart .empty _ (hf.scheduler_mem_seen ?_)
  exact List.mem_append_right _ (List.mem_cons_of_mem _ he)

theorem lives_of_reaches_rivals : ∃ events,
    rivalCooperative.Reaches (rivalCooperative.traced.runReady 0 (rivals, rivalsAsked)).2.1 events ∧
    Lives events (rivalCooperative.traced.runReady 0 (rivals, rivalsAsked)).2.1 ∧
    ((seen .empty events).map fun u => stage (u.state? ⟨2⟩)) =
      [0, 0, 1, 2, 2, 2, 2, 2, 2, 3, 3, 3, 4] := by
  have hr := rivals_reached.tick 0
  exact ⟨_, hr, (lives_of_reaches rivalCooperative hr).1, rfl⟩

end Coroutines.Cooperative

end Grapnel
