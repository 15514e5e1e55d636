namespace Grapnel

/-- Tasks are numbered from one in the order in which they are scheduled. -/
structure TaskId where
  number : Nat
deriving DecidableEq, Inhabited

namespace Task

inductive Kind where
  | delay
  | defer
  | spawn
deriving DecidableEq, Inhabited

inductive State where
  | suspended
  | ready
  | running
  | done
deriving DecidableEq, Inhabited

def Kind.name : Kind → String
  | .delay => "Delay"
  | .defer => "Defer"
  | .spawn => "Spawn"

def State.name : State → String
  | .suspended => "Suspended"
  | .ready => "Ready"
  | .running => "Running"
  | .done => "Done"

/-- A coroutine that exists already, or a function that one is made for. -/
inductive Body (Thread Function : Type) where
  | thread (t : Thread)
  | function (f : Function)
deriving Inhabited

end Task

structure Task (Thread Function Value : Type) where
  id : TaskId
  kind : Task.Kind
  body : Task.Body Thread Function
  args : List Value
  scheduledAt : Nat
  due : Nat
  cancelled : Bool

/-- Tasks that are pending, in the order in which they were scheduled, the ones that the tick under
way has still to start, and the one that runs. -/
structure Scheduler (Thread Function Value : Type) where
  tasks : List (Task Thread Function Value)
  nextId : Nat
  ready : List TaskId
  running : Option TaskId

namespace Scheduler

variable {Thread Function Value : Type}

def empty : Scheduler Thread Function Value := ⟨[], 1, [], none⟩

instance : Inhabited (Scheduler Thread Function Value) := ⟨empty⟩

/-- Adds a task that is due `delay` after `now`. -/
def schedule (s : Scheduler Thread Function Value) (kind : Task.Kind)
    (body : Task.Body Thread Function) (args : List Value) (now delay : Nat) :
    TaskId × Scheduler Thread Function Value :=
  let id : TaskId := ⟨s.nextId⟩
  (id, { s with
    tasks := s.tasks ++ [⟨id, kind, body, args, now, now + delay, false⟩]
    nextId := s.nextId + 1 })

/-- Marks the first pending task of that number that is not cancelled yet; answers whether there was
one. -/
def cancelIn (id : TaskId) :
    List (Task Thread Function Value) → Bool × List (Task Thread Function Value)
  | [] => (false, [])
  | t :: ts =>
    if t.id = id ∧ t.cancelled = false then (true, { t with cancelled := true } :: ts)
    else
      let (found, ts) := cancelIn id ts
      (found, t :: ts)

def cancel (s : Scheduler Thread Function Value) (id : TaskId) :
    Bool × Scheduler Thread Function Value :=
  let (found, tasks) := cancelIn id s.tasks
  (found, { s with tasks := tasks })

def get? (s : Scheduler Thread Function Value) (id : TaskId) :
    Option (Task Thread Function Value) :=
  s.tasks.find? fun t => t.id = id

/-- The state of a task that was ever scheduled here. -/
def state? (s : Scheduler Thread Function Value) (id : TaskId) : Option Task.State :=
  if id.number = 0 ∨ s.nextId ≤ id.number then none
  else if s.running = some id then some .running
  else if id ∈ s.ready then some .ready
  else if s.tasks.any fun t => t.id = id then some .suspended
  else some .done

/-- The count of pending tasks, cancelled ones included. -/
def length (s : Scheduler Thread Function Value) : Nat := s.tasks.length

/-- The earliest time at which a task that is not cancelled is due. -/
def nextDue? (s : Scheduler Thread Function Value) : Option Nat :=
  ((s.tasks.filter fun t => !t.cancelled).map (·.due)).min?

def clear (s : Scheduler Thread Function Value) : Scheduler Thread Function Value :=
  { s with tasks := [], ready := [], running := none }

/-- Takes out the tasks due at `now` and drops the cancelled ones. -/
def takeReady (s : Scheduler Thread Function Value) (now : Nat) :
    List (Task Thread Function Value) × Scheduler Thread Function Value :=
  let live := s.tasks.filter fun t => !t.cancelled
  let (due, pending) := live.partition fun t => t.due ≤ now
  (due, { s with tasks := pending, ready := s.ready ++ due.map (·.id) })

/-- Moves a task from those to be started to the one that runs. -/
def start (s : Scheduler Thread Function Value) (id : TaskId) : Scheduler Thread Function Value :=
  { s with ready := s.ready.filter (· ≠ id), running := some id }

def finish (s : Scheduler Thread Function Value) : Scheduler Thread Function Value :=
  { s with running := none }

end Scheduler

/-- What one tick did: how many coroutines it resumed, and which tasks failed. -/
structure TickReport (Error : Type) where
  resumed : Nat
  failures : List (TaskId × Error)

/-- Coroutines that live in a world `W` together with the scheduler that runs them. -/
structure Coroutines (W Thread Function Value Error : Type) where
  scheduler : W → Scheduler Thread Function Value
  setScheduler : Scheduler Thread Function Value → W → W
  create : Function → W → Except Error Thread × W
  isResumable : Thread → W → Bool
  resume : Thread → List Value → W → Except Error Unit × W
  elapsed : Nat → Value

namespace Coroutines

variable {W Thread Function Value Error : Type}

/-- Resumes a coroutine for a task. A coroutine that cannot be resumed any more is passed over. -/
def runThread (c : Coroutines W Thread Function Value Error)
    (task : Task Thread Function Value) (thread : Thread) (now : Nat)
    (report : TickReport Error) (w : W) : TickReport Error × W :=
  if c.isResumable thread w then
    let args := match task.kind with
      | .delay => task.args ++ [c.elapsed (now - task.scheduledAt)]
      | _ => task.args
    let report := { report with resumed := report.resumed + 1 }
    match c.resume thread args w with
    | (.ok _, w) => (report, w)
    | (.error e, w) => ({ report with failures := report.failures ++ [(task.id, e)] }, w)
  else (report, w)

def runTask (c : Coroutines W Thread Function Value Error)
    (task : Task Thread Function Value) (now : Nat) (report : TickReport Error) (w : W) :
    TickReport Error × W :=
  match task.body with
  | .thread thread => c.runThread task thread now report w
  | .function f =>
    match c.create f w with
    | (.ok thread, w) => c.runThread task thread now report w
    | (.error e, w) => ({ report with failures := report.failures ++ [(task.id, e)] }, w)

def modifyScheduler (c : Coroutines W Thread Function Value Error)
    (f : Scheduler Thread Function Value → Scheduler Thread Function Value) (w : W) : W :=
  c.setScheduler (f (c.scheduler w)) w

def runTasks (c : Coroutines W Thread Function Value Error) (now : Nat) :
    List (Task Thread Function Value) → TickReport Error → W → TickReport Error × W
  | [], report, w => (report, w)
  | task :: rest, report, w =>
    let w := c.modifyScheduler (·.start task.id) w
    let (report, w) := c.runTask task now report w
    let w := c.modifyScheduler (·.finish) w
    c.runTasks now rest report w

/-- One tick: runs every task that is due at `now`. Tasks scheduled while it runs wait for the next
one. -/
def runReady (c : Coroutines W Thread Function Value Error) (now : Nat) (w : W) :
    TickReport Error × W :=
  let (due, scheduler) := (c.scheduler w).takeReady now
  c.runTasks now due ⟨0, []⟩ (c.setScheduler scheduler w)

end Coroutines

end Grapnel
