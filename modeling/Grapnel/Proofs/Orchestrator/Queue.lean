import Grapnel.Proofs.Orchestrator.Overlap

namespace Grapnel

variable {D W : Type}

/-- Where the worker is in its round. -/
inductive Worker where
  | looking
  | checking
  | waiting
  | deciding
  | taking
  | handling (job : Job) (d : Dispatch)
  | ticking
  | ticked
  | stopped

namespace Worker

def job? : Worker → Option Job
  | .handling job _ => some job
  | _ => none

/-- Whether nobody else gets at the queue. -/
def hasQueue : Worker → Bool
  | .checking | .deciding | .taking => true
  | _ => false

/-- Whether the worker goes on only while no script runs in the engine at hand. -/
def needsEngine : Worker → Bool
  | .handling _ .executing | .handling _ (.finished _) | .ticking | .ticked => true
  | _ => false

def next (tools : InjectorTools D W) (o : Orchestrator D W) : Worker → Worker × Orchestrator D W
  | .looking => (.checking, o)
  | .checking => (if o.jobs.isEmpty && o.isRunning then .waiting else .deciding, o)
  | .waiting => (.deciding, o)
  | .deciding => (if o.isRunning then .taking else .stopped, o)
  | .taking =>
    match o.jobs with
    | [] => (.ticking, o)
    | job :: jobs => (.handling job .routing, { o with jobs })
  | .handling _ (.finished _) => (.ticking, o)
  | .handling job d =>
    let (d, o) := o.dispatchStep tools job d
    (.handling job d, o)
  | .ticking => (.ticked, o.tick)
  | .ticked => (.looking, o)
  | .stopped => (.stopped, o)

end Worker

inductive Closing where
  | unasked
  | asked
  | joined
  | emptied
  | closed
deriving DecidableEq

structure Workshop (D W : Type) where
  orchestrator : Orchestrator D W
  worker : Worker
  closing : Closing

inductive WorkEvent where
  | submitted (job : Job)
  | dispatched (job : Job)
  | sent (job : Job)
  | ran (job : Job)
  | sawStop
  | dropped (job : Job)
deriving DecidableEq

namespace WorkEvent

def submitted? : WorkEvent → Option Job
  | .submitted job => some job
  | _ => none

def dispatched? : WorkEvent → Option Job
  | .dispatched job => some job
  | _ => none

def dropped? : WorkEvent → Option Job
  | .dropped job => some job
  | _ => none

/-- Whether a script is taken from the queue, sent or run. -/
def isWork : WorkEvent → Bool
  | .dispatched _ | .sent _ | .ran _ => true
  | _ => false

def submissions (events : List WorkEvent) : List Job := events.filterMap submitted?

def dispatches (events : List WorkEvent) : List Job := events.filterMap dispatched?

def drops (events : List WorkEvent) : List Job := events.filterMap dropped?

variable {events more : List WorkEvent}

@[simp] theorem submissions_append : submissions (events ++ more) = submissions events ++ submissions more :=
  List.filterMap_append

@[simp] theorem dispatches_append : dispatches (events ++ more) = dispatches events ++ dispatches more :=
  List.filterMap_append

@[simp] theorem drops_append : drops (events ++ more) = drops events ++ drops more :=
  List.filterMap_append

@[simp] theorem submissions_dropped (jobs : List Job) : submissions (jobs.map .dropped) = [] := by
  rw [submissions, List.filterMap_map]
  exact List.filterMap_none _

@[simp] theorem dispatches_dropped (jobs : List Job) : dispatches (jobs.map .dropped) = [] := by
  rw [dispatches, List.filterMap_map]
  exact List.filterMap_none _

@[simp] theorem drops_dropped (jobs : List Job) : drops (jobs.map .dropped) = jobs := by
  rw [drops, List.filterMap_map]
  exact List.filterMap_some

end WorkEvent

open WorkEvent

namespace Workshop

variable (tools : InjectorTools D W)

def of (o : Orchestrator D W) : Workshop D W := ⟨o, .looking, .unasked⟩

def work (w : Workshop D W) : Workshop D W where
  orchestrator := (Worker.next tools w.orchestrator w.worker).2
  worker := (Worker.next tools w.orchestrator w.worker).1
  closing := w.closing

def told (w : Workshop D W) : List WorkEvent :=
  let o := w.orchestrator
  match w.worker with
  | .checking => if o.jobs.isEmpty && !o.isRunning then [.sawStop] else []
  | .deciding => if o.isRunning then [] else [.sawStop]
  | .taking => (o.jobs.take 1).map .dispatched
  | .handling job .delivering => [.sent job]
  | .handling job .executing => [.ran job]
  | _ => []

def drop (w : Workshop D W) : Workshop D W :=
  { w with orchestrator := { w.orchestrator with jobs := [] }, closing := .emptied }

/-- A script is submitted; the worker takes a step; the shutdown goes on, and asks what runs to stop as
long as the worker has not stopped; or everything but the queue and the wish to stop changes. -/
inductive Step (tools : InjectorTools D W) (w : Workshop D W) :
    List WorkEvent → Workshop D W → Prop
  | submit (job : Job) : w.worker.hasQueue = false →
      Step tools w [.submitted job] { w with orchestrator := w.orchestrator.submit job }
  | work : (w.worker.needsEngine = true → w.orchestrator.thread.isBusy = false) →
      Step tools w w.told (w.work tools)
  | ask : w.closing = .unasked → Step tools w []
      { w with orchestrator := { w.orchestrator with isRunning := false }, closing := .asked }
  | interrupt : w.closing = .asked → Step tools w [] { w with orchestrator :=
      { w.orchestrator with thread := w.orchestrator.thread.interrupt } }
  | join : w.closing = .asked → w.worker = .stopped → Step tools w [] { w with closing := .joined }
  | drop : w.closing = .joined → Step tools w (w.orchestrator.jobs.map .dropped) w.drop
  | close : w.closing = .emptied → Step tools w [] { w with
      orchestrator := { w.orchestrator with
        injector := w.orchestrator.injector.stopBackground
        thread := w.orchestrator.thread.shutdown }
      closing := .closed }
  | meanwhile (o : Orchestrator D W) : o.jobs = w.orchestrator.jobs →
      o.isRunning = w.orchestrator.isRunning → Step tools w [] { w with orchestrator := o }

inductive Runs (tools : InjectorTools D W) (w : Workshop D W) :
    List WorkEvent → Workshop D W → Prop
  | rest : Runs tools w [] w
  | step {events more : List WorkEvent} {w' w'' : Workshop D W} :
      Runs tools w events w' → Step tools w' more w'' → Runs tools w (events ++ more) w''

end Workshop

theorem Dispatch.finished_of_stepsLeft {d : Dispatch} (h : d.stepsLeft = 0) :
    ∃ result, d = .finished result := by
  cases d with
  | finished result => exact ⟨result, rfl⟩
  | routing | beginning | delivering | ending | executing => cases h

namespace Orchestrator

theorem dispatchStep_beginning (tools : InjectorTools D W) (job : Job) (o : Orchestrator D W) :
    (o.dispatchStep tools job .beginning).2 = (o.inject tools .beginExecution).2 := by
  rw [dispatchStep]
  split
  · next heq => rw [heq]
  · next heq => rw [heq]

theorem dispatchStep_jobs (tools : InjectorTools D W) (job : Job) (o : Orchestrator D W)
    (d : Dispatch) : (o.dispatchStep tools job d).2.jobs = o.jobs := by
  cases d with
  | routing | delivering | ending | executing | finished => rfl
  | beginning =>
    rw [dispatchStep_beginning]
    rfl

theorem dispatchStep_thread (tools : InjectorTools D W) (job : Job) (o : Orchestrator D W)
    {d : Dispatch} (hd : d ≠ .executing) : (o.dispatchStep tools job d).2.thread = o.thread := by
  cases d with
  | routing | delivering | ending | finished => rfl
  | beginning =>
    rw [dispatchStep_beginning]
    rfl
  | executing => exact absurd rfl hd

theorem dispatchStep_waiting (tools : InjectorTools D W) (job : Job) (o : Orchestrator D W)
    {d : Dispatch} (hd : d ≠ .delivering) :
    (o.dispatchStep tools job d).2.post.waiting = o.post.waiting := by
  cases d with
  | routing | ending | executing | finished => rfl
  | beginning =>
    rw [dispatchStep_beginning]
    rfl
  | delivering => exact absurd rfl hd

end Orchestrator

namespace Workshop

variable {tools : InjectorTools D W} {w w' : Workshop D W} {events more : List WorkEvent} {job : Job}
  {o : Orchestrator D W}

/-- The worker has seen that it is to stop. -/
structure Halted (w : Workshop D W) : Prop where
  isRunning : w.orchestrator.isRunning = false
  worker : w.worker = .deciding ∨ w.worker = .stopped

/-- What was told accounts for every script. -/
structure Record (events : List WorkEvent) (w : Workshop D W) : Prop where
  kept : submissions events = dispatches events ++ drops events ++ w.orchestrator.jobs
  inHand : ∀ job, w.worker.job? = some job → (dispatches events).getLast? = some job
  dropped : drops events ≠ [] → .sawStop ∈ events

/-- What was told fits to how far the worker and the shutdown are. -/
structure Phase (events : List WorkEvent) (w : Workshop D W) : Prop where
  halted : .sawStop ∈ events → w.Halted
  stopped : w.worker = .stopped → .sawStop ∈ events
  joined : w.closing ∉ [.unasked, .asked] → w.worker = .stopped

/-- A step of the worker: it leaves the queue alone; or it takes the next script from it; or it handles the
script it took; or it sees that it is to stop. -/
inductive Works (w w' : Workshop D W) : List WorkEvent → Prop
  | moved : w'.orchestrator.jobs = w.orchestrator.jobs → w'.worker.job? = none →
      w'.worker ≠ .stopped → Works w w' []
  | took {job : Job} {d : Dispatch} : w.worker = .taking →
      w.orchestrator.jobs = job :: w'.orchestrator.jobs → w'.worker = .handling job d →
      Works w w' [.dispatched job]
  | handled {job : Job} {d d' : Dispatch} {more : List WorkEvent} : w.worker = .handling job d →
      w'.orchestrator.jobs = w.orchestrator.jobs → w'.worker = .handling job d' →
      (∀ e ∈ more, e = .sent job ∨ e = .ran job) → Works w w' more
  | saw : w'.orchestrator.jobs = w.orchestrator.jobs → w'.Halted → Works w w' [.sawStop]
  | rested : w.worker = .stopped → w' = w → Works w w' []

theorem works (tools : InjectorTools D W) (w : Workshop D W) : Works w (w.work tools) w.told := by
  obtain ⟨o, worker, closing⟩ := w
  cases worker with
  | looking | waiting | ticking | ticked => exact .moved rfl rfl (by rintro ⟨⟩)
  | checking =>
    dsimp only [work, told, Worker.next]
    cases o.jobs.isEmpty <;> cases hr : o.isRunning
    · exact .moved rfl rfl (by rintro ⟨⟩)
    · exact .moved rfl rfl (by rintro ⟨⟩)
    · exact .saw rfl ⟨hr, .inl rfl⟩
    · exact .moved rfl rfl (by rintro ⟨⟩)
  | deciding =>
    dsimp only [work, told, Worker.next]
    cases hr : o.isRunning
    · exact .saw rfl ⟨hr, .inr rfl⟩
    · exact .moved rfl rfl (by rintro ⟨⟩)
  | taking =>
    dsimp only [work, told, Worker.next]
    cases hj : o.jobs with
    | nil => exact .moved rfl rfl (by rintro ⟨⟩)
    | cons job jobs => exact .took rfl hj rfl
  | handling job d =>
    have hqueue := Orchestrator.dispatchStep_jobs tools job o d
    cases d with
    | finished => exact .moved rfl rfl (by rintro ⟨⟩)
    | routing | beginning | ending => exact .handled rfl hqueue rfl (by rintro _ ⟨⟩)
    | delivering => exact .handled rfl hqueue rfl fun e he => .inl (List.mem_singleton.1 he)
    | executing => exact .handled rfl hqueue rfl fun e he => .inr (List.mem_singleton.1 he)
  | stopped => exact .rested rfl rfl

theorem next_handling {d : Dispatch} (h : d.stepsLeft ≠ 0) : Worker.next tools o (.handling job d) =
    (.handling job (o.dispatchStep tools job d).1, (o.dispatchStep tools job d).2) := by
  cases d with
  | finished => exact absurd rfl h
  | routing | beginning | delivering | ending | executing => rfl

theorem work_leaves (tools : InjectorTools D W) (w : Workshop D W) :
    w.worker = .ticking ∨
    (∃ job d, w.worker = .handling job d ∧
      (w.work tools).orchestrator = (w.orchestrator.dispatchStep tools job d).2) ∨
    (w.work tools).orchestrator.thread = w.orchestrator.thread ∧
      (w.work tools).orchestrator.post = w.orchestrator.post := by
  obtain ⟨o, worker, closing⟩ := w
  cases worker with
  | looking | checking | waiting | deciding | ticked | stopped => exact .inr (.inr ⟨rfl, rfl⟩)
  | taking =>
    refine .inr (.inr ?_)
    dsimp only [work, Worker.next]
    cases o.jobs <;> exact ⟨rfl, rfl⟩
  | handling job d =>
    by_cases hd : d.stepsLeft = 0
    · obtain ⟨result, rfl⟩ := Dispatch.finished_of_stepsLeft hd
      exact .inr (.inr ⟨rfl, rfl⟩)
    · refine .inr (.inl ⟨job, d, rfl, ?_⟩)
      rw [work, next_handling hd]
  | ticking => exact .inl rfl

theorem thread_work (tools : InjectorTools D W) (hran : ∀ job, .ran job ∉ w.told)
    (hw : w.worker ≠ .ticking) : (w.work tools).orchestrator.thread = w.orchestrator.thread := by
  rcases work_leaves tools w with hticking | ⟨job, d, hhandling, hstep⟩ | ⟨hthread, _⟩
  · exact absurd hticking hw
  · rw [hstep]
    apply Orchestrator.dispatchStep_thread
    rintro rfl
    rw [told, hhandling] at hran
    exact hran job (.head _)
  · exact hthread

theorem waiting_work (tools : InjectorTools D W) (hsent : ∀ job, .sent job ∉ w.told) :
    (w.work tools).orchestrator.post.waiting = w.orchestrator.post.waiting := by
  rcases work_leaves tools w with hticking | ⟨job, d, hhandling, hstep⟩ | ⟨_, hpost⟩
  · rw [work, hticking]
    rfl
  · rw [hstep]
    apply Orchestrator.dispatchStep_waiting
    rintro rfl
    rw [told, hhandling] at hsent
    exact hsent job (.head _)
  · rw [hpost]

theorem Halted.work (h : w.Halted) : (w.work tools).Halted := by
  obtain ⟨o, worker, closing⟩ := w
  rw [Workshop.work]
  rcases h.worker with rfl | rfl
  · dsimp only [Worker.next]
    rw [h.isRunning]
    exact ⟨h.isRunning, .inr rfl⟩
  · exact h

theorem Halted.told (h : w.Halted) : ∀ e ∈ w.told, e.isWork = false := by
  obtain ⟨o, worker, closing⟩ := w
  rw [Workshop.told]
  rcases h.worker with rfl | rfl
  · rw [h.isRunning]
    intro e he
    rw [List.mem_singleton.1 he]
    rfl
  · intro e he
    cases he

theorem Halted.step (h : w.Halted) (hstep : Step tools w more w') :
    w'.Halted ∧ ∀ e ∈ more, e.isWork = false := by
  cases hstep with
  | submit =>
    refine ⟨⟨h.isRunning, h.worker⟩, ?_⟩
    intro e he
    rw [List.mem_singleton.1 he]
    rfl
  | work => exact ⟨h.work, h.told⟩
  | ask => exact ⟨⟨rfl, h.worker⟩, by simp⟩
  | interrupt | join | close => exact ⟨⟨h.isRunning, h.worker⟩, by simp⟩
  | drop =>
    refine ⟨⟨h.isRunning, h.worker⟩, ?_⟩
    intro e he
    obtain ⟨_, _, rfl⟩ := List.mem_map.1 he
    rfl
  | meanwhile o _ hr => exact ⟨⟨hr.trans h.isRunning, h.worker⟩, by simp⟩

theorem Halted.runs (h : w.Halted) (hruns : Runs tools w more w') :
    w'.Halted ∧ ∀ e ∈ more, e.isWork = false := by
  induction hruns with
  | rest => exact ⟨h, by simp⟩
  | step _ hstep ih =>
    obtain ⟨hhalted, hnone⟩ := ih.1.step hstep
    refine ⟨hhalted, ?_⟩
    intro e he
    rcases List.mem_append.1 he with he | he
    · exact ih.2 e he
    · exact hnone e he

theorem Phase.drops_nil (h : Phase events w) (hrecord : Record events w) (hw : w.worker = .taking) :
    drops events = [] := by
  by_contra hdrops
  rcases (h.halted (hrecord.dropped hdrops)).worker with hworker | hworker
  · cases hw.symm.trans hworker
  · cases hw.symm.trans hworker

structure Aside (more : List WorkEvent) : Prop where
  submissions : submissions more = []
  dispatches : dispatches more = []
  drops : drops more = []

theorem Aside.of_handled (h : ∀ e ∈ more, e = .sent job ∨ e = .ran job) : Aside more := by
  have hnone (f : WorkEvent → Option Job) (hsent : f (.sent job) = none)
      (hran : f (.ran job) = none) : more.filterMap f = [] := by
    apply List.filterMap_eq_nil_iff.2
    intro e he
    rcases h e he with rfl | rfl
    · exact hsent
    · exact hran
  exact ⟨hnone _ rfl rfl, hnone _ rfl rfl, hnone _ rfl rfl⟩

theorem Record.aside (h : Record events w) (hmore : Aside more)
    (hj : w'.orchestrator.jobs = w.orchestrator.jobs)
    (hhand : ∀ job, w'.worker.job? = some job → w.worker.job? = some job) :
    Record (events ++ more) w' where
  kept := by
    simp only [submissions_append, dispatches_append, drops_append, hmore.submissions,
      hmore.dispatches, hmore.drops, List.append_nil, hj]
    exact h.kept
  inHand job hjob := by
    rw [dispatches_append, hmore.dispatches, List.append_nil]
    exact h.inHand job (hhand job hjob)
  dropped hdrops := by
    rw [drops_append, hmore.drops, List.append_nil] at hdrops
    exact List.mem_append_left _ (h.dropped hdrops)

theorem Record.work (h : Record events w) (hphase : Phase events w) :
    Record (events ++ w.told) (w.work tools) := by
  have hworks := works tools w
  generalize w.work tools = w' at hworks
  generalize w.told = more at hworks
  cases hworks with
  | moved hj hnone =>
    apply h.aside ⟨rfl, rfl, rfl⟩ hj
    intro job hjob
    cases hnone.symm.trans hjob
  | @took job d hw hj hw' =>
    -- a worker that takes a script has not seen that it is to stop, so nothing was dropped
    have hdrops := hphase.drops_nil h hw
    constructor
    · have hsubmitted : submissions [.dispatched job] = [] := rfl
      have hdispatched : dispatches [.dispatched job] = [job] := rfl
      have hdropped : drops [.dispatched job] = [] := rfl
      rw [submissions_append, dispatches_append, drops_append, h.kept, hdrops, hj, hsubmitted,
        hdispatched, hdropped]
      simp only [List.append_nil, List.append_assoc, List.singleton_append]
    · intro job' hjob
      rw [hw'] at hjob
      cases hjob
      rw [dispatches_append]
      exact List.getLast?_concat
    · intro hmore
      rw [drops_append, hdrops] at hmore
      exact absurd rfl hmore
  | handled hw hj hw' hmore =>
    apply h.aside (.of_handled hmore) hj
    intro job' hjob
    rw [hw'] at hjob
    rw [hw]
    exact hjob
  | saw hj hhalted =>
    apply h.aside ⟨rfl, rfl, rfl⟩ hj
    intro job hjob
    rcases hhalted.worker with hw | hw
    · rw [hw] at hjob
      cases hjob
    · rw [hw] at hjob
      cases hjob
  | rested _ heq => exact h.aside ⟨rfl, rfl, rfl⟩ (by rw [heq]) (by rw [heq]; exact fun _ => id)

theorem Phase.work (h : Phase events w) : Phase (events ++ w.told) (w.work tools) where
  halted hmem := by
    rcases List.mem_append.1 hmem with hmem | hmem
    · exact (h.halted hmem).work
    · have hworks := works tools w
      generalize w.work tools = w' at hworks ⊢
      generalize w.told = more at hworks hmem
      cases hworks with
      | moved | rested => cases hmem
      | took => cases List.mem_singleton.1 hmem
      | handled _ _ _ hmore => rcases hmore _ hmem with hsaw | hsaw <;> cases hsaw
      | saw _ hhalted => exact hhalted
  stopped hstopped := by
    have hworks := works tools w
    generalize w.work tools = w' at hworks hstopped
    generalize w.told = more at hworks ⊢
    cases hworks with
    | moved _ _ hne => exact absurd hstopped hne
    | took _ _ hw' => cases hw'.symm.trans hstopped
    | handled _ _ hw' => cases hw'.symm.trans hstopped
    | saw => exact List.mem_append_right _ (.head _)
    | rested hw => exact List.mem_append_left _ (h.stopped hw)
  joined hclosing := by
    rw [Workshop.work, h.joined hclosing]
    rfl

theorem Record.submit (h : Record events w) (job : Job) :
    Record (events ++ [.submitted job]) { w with orchestrator := w.orchestrator.submit job } := by
  have hsubmitted : submissions [.submitted job] = [job] := rfl
  have hdispatched : dispatches [.submitted job] = [] := rfl
  have hdropped : drops [.submitted job] = [] := rfl
  constructor
  · rw [submissions_append, dispatches_append, drops_append, h.kept, hsubmitted, hdispatched, hdropped,
      Orchestrator.submit]
    simp only [List.append_nil, List.append_assoc]
  · intro job' hjob
    rw [dispatches_append, hdispatched, List.append_nil]
    exact h.inHand job' hjob
  · intro hdrops
    rw [drops_append, hdropped, List.append_nil] at hdrops
    exact List.mem_append_left _ (h.dropped hdrops)

theorem Record.drop (h : Record events w) (hphase : Phase events w) (hc : w.closing = .joined) :
    Record (events ++ w.orchestrator.jobs.map .dropped) w.drop := by
  constructor
  · rw [submissions_append, dispatches_append, drops_append, h.kept, submissions_dropped,
      dispatches_dropped, drops_dropped, Workshop.drop]
    simp only [List.append_nil, List.append_assoc]
  · intro job hjob
    rw [dispatches_append, dispatches_dropped, List.append_nil]
    exact h.inHand job hjob
  · intro _
    have hstopped : w.worker = .stopped := hphase.joined (by rw [hc]; decide)
    exact List.mem_append_left _ (hphase.stopped hstopped)

theorem Phase.congr (h : Phase events w) (hw : w'.worker = w.worker)
    (hr : w.orchestrator.isRunning = false → w'.orchestrator.isRunning = false)
    (hmore : .sawStop ∉ more) (hjoined : w'.closing ∉ [.unasked, .asked] → w.worker = .stopped) :
    Phase (events ++ more) w' where
  halted hmem := by
    rcases List.mem_append.1 hmem with hmem | hmem
    · have hhalted := h.halted hmem
      exact ⟨hr hhalted.isRunning, hw ▸ hhalted.worker⟩
    · exact absurd hmem hmore
  stopped hstopped := List.mem_append_left _ (h.stopped (hw ▸ hstopped))
  joined hclosing := hw.trans (hjoined hclosing)

theorem Record.step (h : Record events w) (hphase : Phase events w) (hstep : Step tools w more w') :
    Record (events ++ more) w' := by
  cases hstep with
  | submit job => exact h.submit job
  | work => exact h.work hphase
  | ask | interrupt | join | close => exact h.aside ⟨rfl, rfl, rfl⟩ rfl fun _ => id
  | drop hc => exact h.drop hphase hc
  | meanwhile o hj => exact h.aside ⟨rfl, rfl, rfl⟩ hj fun _ => id

theorem Phase.step (h : Phase events w) (hstep : Step tools w more w') : Phase (events ++ more) w' := by
  cases hstep with
  | submit job => exact h.congr rfl id (by simp) h.joined
  | work => exact h.work
  | ask => exact h.congr rfl (fun _ => rfl) (by simp) (by simp)
  | interrupt => exact h.congr rfl id (by simp) h.joined
  | join _ hw => exact h.congr rfl id (by simp) fun _ => hw
  | drop hc => exact h.congr rfl id (by simp) fun _ => h.joined (by rw [hc]; decide)
  | close hc => exact h.congr rfl id (by simp) fun _ => h.joined (by rw [hc]; decide)
  | meanwhile o _ hr => exact h.congr rfl hr.trans (by simp) h.joined

theorem Runs.account (h : o.jobs = []) (hruns : Runs tools (.of o) events w) :
    Record events w ∧ Phase events w := by
  induction hruns with
  | rest =>
    constructor
    · exact ⟨h.symm, by rintro _ ⟨⟩, fun hdrops => absurd rfl hdrops⟩
    · exact ⟨by rintro ⟨⟩, by rintro ⟨⟩, fun hclosing => absurd (.head _) hclosing⟩
  | step _ hstep ih => exact ⟨ih.1.step ih.2 hstep, ih.2.step hstep⟩

/-- How scripts go through the queue. -/
structure InOrder (tools : InjectorTools D W) (events : List WorkEvent) (w : Workshop D W) :
    Prop where
  order : dispatches events <+: submissions events
  /-- A script that was submitted was dispatched or dropped, or still waits. -/
  kept : submissions events = dispatches events ++ drops events ++ w.orchestrator.jobs
  /-- No script is sent or run by the worker but the one that was dispatched last. -/
  latest : ∀ more w' job, Step tools w more w' → .sent job ∈ more ∨ .ran job ∈ more →
    (dispatches events).getLast? = some job
  stopped : .sawStop ∈ events → ∀ more w', Runs tools w more w' → ∀ e ∈ more, e.isWork = false
  dropped : drops events ≠ [] → .sawStop ∈ events
  engine : (∀ job, .ran job ∉ w.told) → w.worker ≠ .ticking →
    (w.work tools).orchestrator.thread = w.orchestrator.thread
  socket : (∀ job, .sent job ∉ w.told) →
    (w.work tools).orchestrator.post.waiting = w.orchestrator.post.waiting

theorem Works.inHand (h : Works w w' more) (hmem : .sent job ∈ more ∨ .ran job ∈ more) :
    w.worker.job? = some job := by
  cases h with
  | moved | rested | took | saw => simp at hmem
  | handled hw _ _ hmore =>
    rw [hw]
    rcases hmem with hmem | hmem
    · rcases hmore _ hmem with heq | heq <;> cases heq
      rfl
    · rcases hmore _ hmem with heq | heq <;> cases heq
      rfl

theorem Step.inHand (h : Step tools w more w') (hmem : .sent job ∈ more ∨ .ran job ∈ more) :
    w.worker.job? = some job := by
  cases h with
  | work => exact (works tools w).inHand hmem
  | submit | ask | interrupt | join | drop | close | meanwhile => simp at hmem

theorem inOrder_of_runs (h : o.jobs = []) (hruns : Runs tools (.of o) events w) :
    InOrder tools events w := by
  obtain ⟨hrecord, hphase⟩ := hruns.account h
  constructor
  · rw [hrecord.kept, List.append_assoc]
    exact List.prefix_append ..
  · exact hrecord.kept
  · intro more w' job hstep hmem
    exact hrecord.inHand job (hstep.inHand hmem)
  · intro hsaw more w' hmore
    exact ((hphase.halted hsaw).runs hmore).2
  · exact hrecord.dropped
  · exact thread_work tools
  · exact waiting_work tools

/-- An orchestrator whose engine has no machine, so that every script fails. -/
def lone : Orchestrator Nat Unit where
  injector := Injector.nameKnown
  thread := .ofEngine (.idle ⟨default, Traffic.listener, 0, .lowered, none, []⟩)
  interceptor := .create .amd64
  socketPath := "/s"
  jobs := []
  isRunning := true
  post := ⟨Traffic.listener, []⟩

theorem inOrder_of_runs_lone : ∃ events w, Runs Injector.oneProcess (.of lone) events w ∧
    submissions events = [⟨"a", "first"⟩, ⟨"b", "second"⟩, ⟨"c", "third"⟩] ∧
    dispatches events = [⟨"a", "first"⟩] ∧ drops events = [⟨"b", "second"⟩] ∧
    w.orchestrator.jobs = [⟨"c", "third"⟩] ∧ .ran ⟨"a", "first"⟩ ∈ events ∧ .sawStop ∈ events ∧
    InOrder Injector.oneProcess events w := by
  have hnone : Runs Injector.oneProcess (.of lone) [] (.of lone) := .rest
  have hfirst := hnone.step (.submit ⟨"a", "first"⟩ rfl)
  have hsecond := hfirst.step (.submit ⟨"b", "second"⟩ rfl)
  have hdeciding := (hsecond.step (.work (by decide +kernel))).step (.work (by decide +kernel))
  have htook := (hdeciding.step (.work (by decide +kernel))).step (.work (by decide +kernel))
  have hran := (htook.step (.work (by decide +kernel))).step (.work (by decide +kernel))
  have hticked := (hran.step (.work (by decide +kernel))).step (.work (by decide +kernel))
  have hasked := (hticked.step (.work (by decide +kernel))).step (.ask rfl)
  have hchecked := (hasked.step (.work (by decide +kernel))).step (.work (by decide +kernel))
  have hstopped := hchecked.step (.work (by decide +kernel))
  have hdropped := (hstopped.step (.join rfl (by cbv))).step (.drop rfl)
  have hruns := hdropped.step (.submit ⟨"c", "third"⟩ (by decide +kernel))
  exact ⟨_, _, hruns, by decide +kernel, by decide +kernel, by decide +kernel, by decide +kernel,
    by decide +kernel, by decide +kernel, inOrder_of_runs rfl hruns⟩

end Workshop

namespace Orchestrator

variable {tools : InjectorTools D W} {o : Orchestrator D W} {job : Job} {d : Dispatch}

theorem dispatchFor_succ {n : Nat} : dispatchFor tools job (n + 1) d o =
    dispatchFor tools job n (o.dispatchStep tools job d).1 (o.dispatchStep tools job d).2 := rfl

theorem stepsLeft_dispatchStep (tools : InjectorTools D W) (job : Job) (o : Orchestrator D W)
    (d : Dispatch) : (o.dispatchStep tools job d).1.stepsLeft ≤ d.stepsLeft - 1 := by
  cases d with
  | routing =>
    rw [dispatchStep]
    dsimp only
    split <;> decide
  | beginning =>
    rw [dispatchStep]
    split <;> simp only [Dispatch.stepsLeft] <;> omega
  | ending delivered =>
    rw [dispatchStep]
    dsimp only
    cases delivered <;> decide
  | delivering | executing | finished => exact Nat.le_refl _

/-- Handling a script comes to its end. -/
theorem dispatchFor_finished (tools : InjectorTools D W) (job : Job) {n : Nat}
    (h : d.stepsLeft ≤ n) : ∃ result, (dispatchFor tools job n d o).1 = .finished result := by
  induction n generalizing d o with
  | zero => exact Dispatch.finished_of_stepsLeft (Nat.le_zero.1 h)
  | succ n ih =>
    have hstep := stepsLeft_dispatchStep tools job o d
    rw [dispatchFor_succ]
    apply ih
    omega

theorem dispatch_snd (tools : InjectorTools D W) (job : Job) (o : Orchestrator D W) :
    (o.dispatch tools job).2 = (dispatchFor tools job dispatchSteps .routing o).2 := by
  rw [dispatch]
  split
  · next heq => rw [heq]
  · next heq => rw [heq]

end Orchestrator

namespace Workshop

variable {tools : InjectorTools D W} {w w' w'' : Workshop D W} {events more : List WorkEvent} {job : Job}
  {o : Orchestrator D W} {closing : Closing}

theorem Runs.trans (h : Runs tools w events w') (h' : Runs tools w' more w'') :
    Runs tools w (events ++ more) w'' := by
  induction h' with
  | rest => exact (List.append_nil events).symm ▸ h
  | step _ hstep ih => exact List.append_assoc .. ▸ ih.step hstep

theorem dispatches_told_handling {d : Dispatch} :
    dispatches (told (D := D) (W := W) ⟨o, .handling job d, closing⟩) = [] := by
  cases d <;> rfl

/-- A worker that is left alone handles its script to the end. -/
theorem runs_handling (tools : InjectorTools D W) (job : Job) (closing : Closing) (n : Nat)
    {d : Dispatch} (hfree : d.stepsLeft ≠ 0 → o.thread.isBusy = false) :
    ∃ events, Runs tools ⟨o, .handling job d, closing⟩ events
      ⟨(Orchestrator.dispatchFor tools job n d o).2,
        .handling job (Orchestrator.dispatchFor tools job n d o).1, closing⟩ ∧
      dispatches events = [] := by
  induction n generalizing d o with
  | zero => exact ⟨[], .rest, rfl⟩
  | succ n ih =>
    rw [Orchestrator.dispatchFor_succ]
    by_cases hd : d.stepsLeft = 0
    · obtain ⟨result, rfl⟩ := Dispatch.finished_of_stepsLeft hd
      exact ih fun h => absurd rfl h
    · have hstep : Step tools ⟨o, .handling job d, closing⟩ _ _ := .work fun _ => hfree hd
      rw [work, next_handling hd] at hstep
      obtain ⟨events, hruns, hnone⟩ := ih (o := (o.dispatchStep tools job d).2)
        (d := (o.dispatchStep tools job d).1) fun hleft => by
          rw [Orchestrator.dispatchStep_thread tools job o (by rintro rfl; exact hleft rfl)]
          exact hfree hd
      refine ⟨_, (Runs.rest.step hstep).trans hruns, ?_⟩
      rw [dispatches_append, dispatches_append, hnone, dispatches_told_handling]
      rfl

theorem runs_dispatch (tools : InjectorTools D W) (job : Job) (closing : Closing)
    (hfree : o.thread.isBusy = false) :
    ∃ events result, Runs tools ⟨o, .handling job .routing, closing⟩ events
        ⟨(o.dispatch tools job).2, .handling job (.finished result), closing⟩ ∧
      dispatches events = [] := by
  have hsteps : Dispatch.stepsLeft .routing ≤ Orchestrator.dispatchSteps := Nat.le_refl _
  obtain ⟨result, hfinished⟩ := Orchestrator.dispatchFor_finished (o := o) tools job hsteps
  obtain ⟨events, hruns, hnone⟩ :=
    runs_handling (d := .routing) tools job closing Orchestrator.dispatchSteps fun _ => hfree
  rw [hfinished, ← Orchestrator.dispatch_snd] at hruns
  exact ⟨events, result, hruns, hnone⟩

/-- A round of a worker that is left alone takes the next script, and then waits at most for the engine. -/
theorem runs_work (tools : InjectorTools D W) (closing : Closing) (hr : o.isRunning = true)
    (hfree : o.thread.isBusy = false) :
    ∃ events worker, Runs tools ⟨o, .looking, closing⟩ events ⟨o.work tools, worker, closing⟩ ∧
      dispatches events = o.jobs.take 1 ∧ worker.needsEngine = true := by
  obtain ⟨injector, thread, interceptor, socketPath, jobs, isRunning, post⟩ := o
  dsimp only at hr hfree
  subst hr
  let queue (jobs : List Job) : Orchestrator D W :=
    ⟨injector, thread, interceptor, socketPath, jobs, true, post⟩
  have hgoes : ((queue jobs).isRunning && !(queue jobs).thread.isBusy) = true := by
    rw [hfree]
    rfl
  rw [Orchestrator.work, if_pos hgoes]
  have hlooking : Runs tools ⟨queue jobs, .looking, closing⟩ [] ⟨queue jobs, .checking, closing⟩ :=
    Runs.rest.step (.work fun _ => hfree)
  cases jobs with
  | nil =>
    have hwaiting := hlooking.step (.work fun _ => hfree)
    have hdeciding := hwaiting.step (.work fun _ => hfree)
    have htaking := hdeciding.step (.work fun _ => hfree)
    have hticking := (htaking.step (.work fun _ => hfree)).step (.work fun _ => hfree)
    exact ⟨_, .ticked, hticking, rfl, rfl⟩
  | cons job jobs =>
    have hdeciding := hlooking.step (.work fun _ => hfree)
    have htaking := hdeciding.step (.work fun _ => hfree)
    have htook : Runs tools ⟨queue (job :: jobs), .looking, closing⟩ [.dispatched job]
        ⟨queue jobs, .handling job .routing, closing⟩ := htaking.step (.work fun _ => hfree)
    obtain ⟨events, result, hhandling, hnone⟩ := runs_dispatch (o := queue jobs) tools job closing hfree
    have hruns := htook.trans hhandling
    have hdispatched : dispatches ([.dispatched job] ++ events) = [job] := by
      rw [dispatches_append, hnone]
      rfl
    dsimp only
    split
    · exact ⟨_, _, hruns, hdispatched, rfl⟩
    · next hidle =>
      have hover := hruns.step (.work fun _ => Bool.not_eq_true _ ▸ hidle)
      have hticking := hover.step (.work fun _ => Bool.not_eq_true _ ▸ hidle)
      refine ⟨_, .ticked, hticking, ?_, rfl⟩
      rw [dispatches_append, dispatches_append, hdispatched]
      rfl

/-- A shutdown that meets a worker at rest drops the scripts that wait. -/
theorem runs_shutdown (tools : InjectorTools D W) (hr : o.isRunning = true) :
    ∃ events, Runs tools (.of o) events ⟨o.shutdown, .stopped, .closed⟩ ∧ dispatches events = [] ∧
      drops events = o.jobs := by
  rw [Orchestrator.shutdown, if_pos hr]
  obtain ⟨injector, thread, interceptor, socketPath, jobs, isRunning, post⟩ := o
  let start : Orchestrator D W :=
    ⟨injector, thread, interceptor, socketPath, jobs, isRunning, post⟩
  let asked : Orchestrator D W :=
    ⟨injector, thread.interrupt, interceptor, socketPath, jobs, false, post⟩
  have hasked : Runs tools (.of start) [] ⟨asked, .looking, .asked⟩ :=
    (Runs.rest.step (.ask rfl)).step (.interrupt rfl)
  have hchecking : Runs tools (.of start) [] ⟨asked, .checking, .asked⟩ :=
    hasked.step (.work (by rintro ⟨⟩))
  have hdeciding : ∃ events, Runs tools (.of start) events ⟨asked, .deciding, .asked⟩ ∧
      dispatches events = [] ∧ drops events = [] := by
    cases jobs with
    | nil => exact ⟨_, hchecking.step (.work (by rintro ⟨⟩)), rfl, rfl⟩
    | cons job jobs => exact ⟨_, hchecking.step (.work (by rintro ⟨⟩)), rfl, rfl⟩
  obtain ⟨events, hruns, hnone, hkept⟩ := hdeciding
  have hstopped : Runs tools (.of start) (events ++ [.sawStop]) ⟨asked, .stopped, .asked⟩ :=
    hruns.step (.work (by rintro ⟨⟩))
  have hdropped := (hstopped.step (.join rfl rfl)).step (.drop rfl)
  refine ⟨_, hdropped.step (.close rfl), ?_, ?_⟩
  · simp only [dispatches_append, dispatches_dropped, hnone]
    rfl
  · simp only [drops_append, drops_dropped, hkept]
    exact List.append_nil jobs

end Workshop

end Grapnel
