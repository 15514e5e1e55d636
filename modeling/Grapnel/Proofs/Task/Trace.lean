import Grapnel.Proofs.Task.History

namespace Grapnel

open Scheduler

variable {W Thread Function Value Error : Type}

/-- The first report goes over into the second by the events. -/
structure TickReport.Accounts (report report' : TickReport Error)
    (es : List (Event W Thread Function Value Error)) : Prop where
  resumed : report'.resumed = report.resumed + es.countP Event.isResumed
  failures : report'.failures = report.failures ++ es.filterMap Event.failure?

namespace Coroutines

variable (c : Coroutines W Thread Function Value Error)

/-- While they run, coroutines ask their scheduler for nothing but to schedule and to cancel. -/
structure Cooperative where
  asks : Thread → List Value → W → List (Request Thread Function Value)
  scheduler_set : ∀ s w, c.scheduler (c.setScheduler s w) = s
  scheduler_create : ∀ f w, c.scheduler (c.create f w).2 = c.scheduler w
  scheduler_resume : ∀ t args w,
    c.scheduler (c.resume t args w).2 = (c.scheduler w).grantAll (asks t args w)

/-- A task receives what it was scheduled with, and one with a delay the time that passed, which is
no less than the delay. -/
inductive Receives (now : Nat) (task : Task Thread Function Value) : List Value → Prop where
  | elapsed : task.kind = .delay → task.due - task.scheduledAt ≤ now - task.scheduledAt →
      Receives now task (task.args ++ [c.elapsed (now - task.scheduledAt)])
  | given : task.kind ≠ .delay → Receives now task task.args

namespace Cooperative

variable {c} (h : c.Cooperative)

/-- A coroutine is resumed, asks for what it asks, and answers. -/
def resumption (t : Thread) (args : List Value) (w : W) :
    List (Event W Thread Function Value Error) :=
  ⟨c.scheduler w, .resumed t args⟩ :: (Event.ofRequests (c.scheduler w) (h.asks t args w) ++
    [⟨c.scheduler (c.resume t args w).2, .returned (c.resume t args w).1⟩])

/-- The same coroutines, with a history that grows beside their world. -/
def traced : Coroutines (W × List (Event W Thread Function Value Error))
    Thread Function Value Error where
  scheduler p := c.scheduler p.1
  setScheduler s p :=
    (c.setScheduler s p.1, p.2 ++ [⟨s, .stored (c.setScheduler s p.1)⟩])
  create f p :=
    ((c.create f p.1).1, (c.create f p.1).2,
      p.2 ++ [⟨c.scheduler p.1, .created f (c.create f p.1).1 (c.create f p.1).2⟩])
  isResumable t p := c.isResumable t p.1
  resume t args p :=
    ((c.resume t args p.1).1, (c.resume t args p.1).2, p.2 ++ h.resumption t args p.1)
  elapsed := c.elapsed

/-- What happens when a task's coroutine is to be resumed in a world. -/
inductive Drives (now : Nat) (task : Task Thread Function Value) (t : Thread) (w : W) :
    List (Event W Thread Function Value Error) → Prop where
  | refused : c.isResumable t w = false → Drives now task t w []
  | resumed : c.isResumable t w = true → c.Receives now task args →
      Drives now task t w (h.resumption t args w)

inductive Runs (now : Nat) (task : Task Thread Function Value) (w : W) :
    List (Event W Thread Function Value Error) → Prop where
  | thread : task.body = .thread t → h.Drives now task t w es → Runs now task w es
  | made : task.body = .function f → c.create f w = (.ok t, w') → h.Drives now task t w' es →
      Runs now task w (⟨c.scheduler w, .created f (.ok t) w'⟩ :: es)
  | unmade : task.body = .function f → c.create f w = (.error fault, w') →
      Runs now task w [⟨c.scheduler w, .created f (.error fault) w'⟩]

/-- A tick hands the task to the coroutines: it begins to run, it runs, and it ends. -/
inductive Handles (now : Nat) (task : Task Thread Function Value) :
    List (Event W Thread Function Value Error) → Prop where
  | mk : (c.scheduler w).running = some task.id → h.Runs now task w es →
      (c.scheduler w').running = none →
      Handles now task
        (⟨c.scheduler w, .stored w⟩ :: (es ++ [⟨c.scheduler w', .stored w'⟩]))

end Cooperative

variable {c} {task : Task Thread Function Value} {t : Thread} {now : Nat} {w : W}
  {report : TickReport Error}

/-- What a task is handed. -/
def handed (c : Coroutines W Thread Function Value Error) (now : Nat)
    (task : Task Thread Function Value) : List Value :=
  match task.kind with
  | .delay => task.args ++ [c.elapsed (now - task.scheduledAt)]
  | _ => task.args

theorem receives_handed (h : task.due ≤ now) : c.Receives now task (c.handed now task) := by
  cases hk : task.kind with
  | delay =>
    simp only [handed, hk]
    exact .elapsed hk (Nat.sub_le_sub_right h _)
  | defer | spawn =>
    simp only [handed, hk]
    exact .given (by rw [hk]; nofun)

def faults (id : TaskId) {α : Type} : Except Error α → List (TaskId × Error)
  | .ok _ => []
  | .error fault => [(id, fault)]

theorem runThread_refused (h : c.isResumable t w = false) :
    c.runThread task t now report w = (report, w) :=
  if_neg (ne_true_of_eq_false h)

theorem runThread_resumed (h : c.isResumable t w = true) :
    c.runThread task t now report w =
      (⟨report.resumed + 1,
        report.failures ++ faults task.id (c.resume t (c.handed now task) w).1⟩,
        (c.resume t (c.handed now task) w).2) := by
  rw [runThread, if_pos h]
  dsimp only
  split
  · next hr =>
    have hr : c.resume t (c.handed now task) w = _ := hr
    rw [hr, faults, List.append_nil]
  · next hr =>
    have hr : c.resume t (c.handed now task) w = _ := hr
    rw [hr]
    rfl

theorem runTask_thread (hb : task.body = .thread t) :
    c.runTask task now report w = c.runThread task t now report w := by
  rw [runTask, hb]

theorem runTask_made (hb : task.body = .function f) (hc : c.create f w = (.ok t, w')) :
    c.runTask task now report w = c.runThread task t now report w' := by
  rw [runTask, hb]
  simp only [hc]

theorem runTask_unmade (hb : task.body = .function f) (hc : c.create f w = (.error fault, w')) :
    c.runTask task now report w =
      ({ report with failures := report.failures ++ [(task.id, fault)] }, w') := by
  rw [runTask, hb]
  simp only [hc]

end Coroutines

namespace Scheduler

variable {s s' : Scheduler Thread Function Value} {w w' : W}
  {rs rs' : List (Request Thread Function Value)}

theorem grantAll_append : s.grantAll (rs ++ rs') = (s.grantAll rs).grantAll rs' := by
  induction rs generalizing s with
  | nil => rfl
  | cons r rs ih => exact ih

theorem Event.filterMap_between {β : Type} {f : Event W Thread Function Value Error → Option β}
    (hf : ∀ s w, f ⟨s, .stored w⟩ = none) (es : List (Event W Thread Function Value Error)) :
    (⟨s, .stored w⟩ :: (es ++ [⟨s', .stored w'⟩])).filterMap f = es.filterMap f := by
  rw [List.filterMap_cons_none (hf s w), List.filterMap_append, List.filterMap_cons_none (hf s' w'),
    List.filterMap_nil, List.append_nil]

/-- Nothing is taken and nothing runs. -/
def settled (s : Scheduler Thread Function Value) : Scheduler Thread Function Value :=
  { s with ready := [], running := none }

theorem settled_grantAll : (s.grantAll rs).settled = s.settled.grantAll rs := by
  induction rs generalizing s with
  | nil => rfl
  | cons r rs ih =>
    rw [grantAll, ih, grantAll]
    cases r <;> rfl

theorem Event.ofRequests_filterMap_request :
    (ofRequests s rs : List (Event W Thread Function Value Error)).filterMap request? = rs := by
  induction rs generalizing s with
  | nil => rfl
  | cons r rs ih => exact congrArg (r :: ·) ih

theorem Event.ofRequests_quiet {β : Type} {f : Event W Thread Function Value Error → Option β}
    (hf : ∀ s r, f ⟨s, .asked r⟩ = none) : (ofRequests s rs).filterMap f = [] := by
  induction rs generalizing s with
  | nil => rfl
  | cons r rs ih => rw [ofRequests, List.filterMap_cons_none (hf s r), ih]

theorem Event.ofRequests_countP_isResumed :
    (ofRequests s rs : List (Event W Thread Function Value Error)).countP isResumed = 0 := by
  induction rs generalizing s with
  | nil => rfl
  | cons r rs ih => rw [ofRequests, List.countP_cons_of_neg Bool.false_ne_true, ih]

end Scheduler

namespace TickReport

variable {report report' report'' : TickReport Error}
  {es es' : List (Event W Thread Function Value Error)}

theorem Accounts.refl : report.Accounts report ([] : List (Event W Thread Function Value Error)) :=
  ⟨rfl, (List.append_nil _).symm⟩

theorem Accounts.trans (h : report.Accounts report' es) (h' : report'.Accounts report'' es') :
    report.Accounts report'' (es ++ es') where
  resumed := by rw [h'.resumed, h.resumed, List.countP_append, Nat.add_assoc]
  failures := by rw [h'.failures, h.failures, List.filterMap_append, List.append_assoc]

theorem Accounts.between (h : report.Accounts report' es) (s s' : Scheduler Thread Function Value)
    (w w' : W) : report.Accounts report' (⟨s, .stored w⟩ :: (es ++ [⟨s', .stored w'⟩])) where
  resumed := by
    rw [h.resumed, List.countP_cons_of_neg Bool.false_ne_true, List.countP_append,
      List.countP_singleton]
    rfl
  failures := by rw [h.failures, Event.filterMap_between fun _ _ => rfl]

end TickReport

namespace Coroutines.Cooperative

variable {c : Coroutines W Thread Function Value Error} (h : c.Cooperative)
  {task : Task Thread Function Value} {t : Thread} {now : Nat} {w : W} {report : TickReport Error}
  {es : List (Event W Thread Function Value Error)}

/-- The run with a history is the plain run, and the events account for what it did. -/
structure Told (es new : List (Event W Thread Function Value Error))
    (report : TickReport Error) (w : W)
    (traced : TickReport Error × W × List (Event W Thread Function Value Error))
    (plain : TickReport Error × W) : Prop where
  same : traced = (plain.1, plain.2, es ++ new)
  accounts : report.Accounts plain.1 new
  granted : c.scheduler plain.2 = (c.scheduler w).grantAll (new.filterMap Event.request?)
  follows : Follows (c.scheduler w) new (c.scheduler plain.2)

theorem accounts_resume (report : TickReport Error) (t : Thread) (args : List Value)
    (hr : (c.scheduler w).running = some task.id) :
    report.Accounts
      ⟨report.resumed + 1, report.failures ++ faults task.id (c.resume t args w).1⟩
      (h.resumption t args w) := by
  have hrun : (c.scheduler (c.resume t args w).2).running = some task.id := by
    rw [h.scheduler_resume, running_grantAll, hr]
  unfold resumption
  constructor
  · rw [List.countP_cons_of_pos rfl, List.countP_append, Event.ofRequests_countP_isResumed]
    rfl
  · rw [List.filterMap_cons_none rfl, List.filterMap_append,
      Event.ofRequests_quiet fun _ _ => rfl, List.nil_append]
    cases (c.resume t args w).1 with
    | ok => rfl
    | error fault => simp [Event.failure?, hrun, faults]

theorem told_runThread (report : TickReport Error) (w : W)
    (es : List (Event W Thread Function Value Error)) (t : Thread) (hd : task.due ≤ now)
    (hr : (c.scheduler w).running = some task.id) :
    ∃ new, h.Drives now task t w new ∧
      Told (c := c) es new report w (h.traced.runThread task t now report (w, es))
        (c.runThread task t now report w) := by
  cases hres : c.isResumable t w with
  | false =>
    refine ⟨[], .refused hres, ?_⟩
    rw [runThread_refused hres, runThread_refused (c := h.traced) (w := (w, es)) hres]
    exact ⟨by rw [List.append_nil], .refl, rfl, .nil⟩
  | true =>
    refine ⟨_, .resumed hres (receives_handed hd), ?_⟩
    rw [runThread_resumed hres, runThread_resumed (c := h.traced) (w := (w, es)) hres]
    exact
      { same := rfl
        accounts := h.accounts_resume report t _ hr
        granted := by
          rw [h.scheduler_resume, resumption, List.filterMap_cons_none rfl, List.filterMap_append,
            Event.ofRequests_filterMap_request]
          exact congrArg _ (List.append_nil _).symm
        follows := .cons .resumed <| h.scheduler_resume t _ w ▸
          (Follows.ofRequests _ _).append (.cons .returned .nil) }

theorem told_runTask (report : TickReport Error) (w : W)
    (es : List (Event W Thread Function Value Error)) (hd : task.due ≤ now)
    (hr : (c.scheduler w).running = some task.id) :
    ∃ new, h.Runs now task w new ∧
      Told (c := c) es new report w (h.traced.runTask task now report (w, es))
        (c.runTask task now report w) := by
  cases hb : task.body with
  | thread t =>
    obtain ⟨new, hdr, ht⟩ := h.told_runThread report w es t hd hr
    rw [runTask_thread hb, runTask_thread hb]
    exact ⟨new, .thread hb hdr, ht⟩
  | function f =>
    rcases hc : c.create f w with ⟨result, w'⟩
    have hs := h.scheduler_create f w
    rw [hc] at hs
    have hct : h.traced.create f (w, es) =
        (result, w', es ++ [⟨c.scheduler w, .created f result w'⟩]) := by
      simp only [traced, hc]
    cases result with
    | error fault =>
      rw [runTask_unmade hb hc, runTask_unmade (c := h.traced) hb hct]
      exact ⟨_, .unmade hb hc, rfl, ⟨rfl, by simp [Event.failure?, hr]⟩, hs,
        by rw [hs]; exact .cons .created .nil⟩
    | ok t =>
      obtain ⟨new, hdr, ht⟩ := h.told_runThread report w'
        (es ++ [⟨c.scheduler w, .created f (.ok t) w'⟩]) t hd (hs ▸ hr)
      rw [runTask_made hb hc, runTask_made (c := h.traced) hb hct]
      refine ⟨_, .made hb hc hdr, ?_, ?_, ?_, ?_⟩
      · rw [ht.same, List.append_assoc]
        rfl
      · exact ⟨ht.accounts.resumed, ht.accounts.failures⟩
      · rw [ht.granted, hs]
        rfl
      · exact .cons .created (hs ▸ ht.follows)

/-- Tasks are handed over one after the other, and the events account for what each did. -/
structure Loop (now : Nat) (due : List (Task Thread Function Value))
    (blocks : List (List (Event W Thread Function Value Error))) (report : TickReport Error)
    (w : W) (stop : TickReport Error × W) : Prop where
  handled : List.Forall₂ (h.Handles now) due blocks
  accounts : report.Accounts stop.1 blocks.flatten
  settled : (c.scheduler stop.2).settled =
    (c.scheduler w).settled.grantAll (blocks.flatten.filterMap Event.request?)
  ready : ∀ id, id ∈ (c.scheduler stop.2).ready ↔
    id ∈ (c.scheduler w).ready ∧ id ∉ due.map (·.id)
  running : (c.scheduler w).running = none → (c.scheduler stop.2).running = none
  follows : (due.map (·.id)).Nodup → (∀ id ∈ due.map (·.id), id ∈ (c.scheduler w).ready) →
    (c.scheduler w).running = none →
    Follows (c.scheduler w) blocks.flatten (c.scheduler stop.2)

theorem Loop.nil : h.Loop now [] [] report w (report, w) where
  handled := .nil
  accounts := .refl
  settled := rfl
  ready _ := (and_iff_left List.not_mem_nil).symm
  running := id
  follows _ _ _ := .nil

theorem Loop.cons (h₁ : h.Loop now [task] [block] report w mid)
    (h₂ : h.Loop now due blocks mid.1 mid.2 stop) :
    h.Loop now (task :: due) (block :: blocks) report w stop := by
  have hb : [block].flatten = block := List.append_nil block
  have hh : h.Handles now task block := by
    cases h₁.handled with
    | cons hh => exact hh
  refine ⟨.cons hh h₂.handled, ?_, ?_, ?_, fun hr => h₂.running (h₁.running hr), ?_⟩
  · exact hb ▸ h₁.accounts.trans h₂.accounts
  · rw [h₂.settled, h₁.settled, hb, List.flatten_cons, List.filterMap_append, grantAll_append]
  · intro id
    simp only [h₂.ready, h₁.ready, List.map_cons, List.map_nil, List.mem_cons, List.not_mem_nil,
      or_false, not_or, and_assoc]
  · intro hnd hr hrun
    rw [List.map_cons, List.nodup_cons] at hnd
    obtain ⟨hid, hrest⟩ := List.forall_mem_cons.1 hr
    have hf := h₁.follows (List.nodup_singleton _) (List.forall_mem_singleton.2 hid) hrun
    refine (hb ▸ hf).append (h₂.follows hnd.2 (fun id hm => ?_) (h₁.running hrun))
    refine (h₁.ready id).2 ⟨hrest id hm, fun hc => hnd.1 ?_⟩
    cases List.mem_singleton.1 hc
    exact hm

/-- A task is started, run and finished. -/
def turn (c : Coroutines W Thread Function Value Error) (now : Nat)
    (task : Task Thread Function Value) (report : TickReport Error) (w : W) :
    TickReport Error × W :=
  let (report, w) := c.runTask task now report (c.modifyScheduler (·.start task.id) w)
  (report, c.modifyScheduler (·.finish) w)

theorem loop_turn (report : TickReport Error) (w : W)
    (es : List (Event W Thread Function Value Error)) (hd : task.due ≤ now) :
    ∃ block, turn h.traced now task report (w, es) =
        ((turn c now task report w).1, (turn c now task report w).2, es ++ block) ∧
      h.Loop now [task] [block] report w (turn c now task report w) := by
  have hs : c.scheduler (c.modifyScheduler (·.start task.id) w) = (c.scheduler w).start task.id :=
    h.scheduler_set ..
  set w₁ := c.modifyScheduler (·.start task.id) w
  obtain ⟨new, hrn, ht⟩ := h.told_runTask report w₁
    (es ++ [⟨(c.scheduler w).start task.id, .stored w₁⟩]) hd (congrArg running hs)
  have hf : c.scheduler (turn c now task report w).2 =
      (c.scheduler (c.runTask task now report w₁).2).finish := h.scheduler_set ..
  refine ⟨⟨c.scheduler w₁, .stored w₁⟩ :: (new ++
    [⟨c.scheduler (turn c now task report w).2, .stored (turn c now task report w).2⟩]), ?_, ?_⟩
  · change ((h.traced.runTask task now report
        (w₁, es ++ [⟨(c.scheduler w).start task.id, .stored w₁⟩])).1,
      h.traced.modifyScheduler (·.finish) (h.traced.runTask task now report
        (w₁, es ++ [⟨(c.scheduler w).start task.id, .stored w₁⟩])).2) = _
    rw [ht.same, hs, hf]
    exact congrArg (fun l => ((turn c now task report w).1, (turn c now task report w).2, l))
      (by simp only [List.append_assoc, List.cons_append, List.nil_append]; rfl)
  constructor
  case handled => exact .cons (.mk (congrArg running hs) hrn (congrArg running hf)) .nil
  case accounts =>
    rw [List.flatten_singleton]
    exact ht.accounts.between ..
  case settled =>
    rw [List.flatten_singleton, Event.filterMap_between fun _ _ => rfl, hf]
    change (c.scheduler (c.runTask task now report w₁).2).settled = _
    rw [ht.granted, settled_grantAll, hs]
    rfl
  case ready =>
    intro id
    have hready := congrArg Scheduler.ready ht.granted
    rw [ready_grantAll, hs] at hready
    rw [hf]
    change id ∈ (c.scheduler (c.runTask task now report w₁).2).ready ↔ _
    rw [hready]
    simp [start]
  case running => exact fun _ => congrArg running hf
  case follows =>
    intro _ hr hrun
    rw [List.flatten_singleton, hs, hf]
    exact .cons (.started (hr _ List.mem_cons_self) hrun)
      ((hs ▸ ht.follows).append (.cons .finished .nil))

theorem loop_runTasks (report : TickReport Error) (w : W)
    (es : List (Event W Thread Function Value Error)) {due : List (Task Thread Function Value)}
    (hd : ∀ t ∈ due, t.due ≤ now) :
    ∃ blocks, h.traced.runTasks now due report (w, es) =
        ((c.runTasks now due report w).1, (c.runTasks now due report w).2, es ++ blocks.flatten) ∧
      h.Loop now due blocks report w (c.runTasks now due report w) := by
  induction due generalizing report w es with
  | nil => exact ⟨[], congrArg (fun l => (report, w, l)) (List.append_nil _).symm, .nil h⟩
  | cons task due ih =>
    obtain ⟨ht, hd⟩ := List.forall_mem_cons.1 hd
    obtain ⟨block, hb, hl⟩ := h.loop_turn report w es ht
    obtain ⟨blocks, hbs, hls⟩ := ih (turn c now task report w).1 (turn c now task report w).2
      (es ++ block) hd
    refine ⟨block :: blocks, ?_, .cons h hl hls⟩
    change h.traced.runTasks now due (turn h.traced now task report (w, es)).1
      (turn h.traced now task report (w, es)).2 = _
    rw [hb, hbs, List.append_assoc]
    rfl

end Coroutines.Cooperative

end Grapnel
