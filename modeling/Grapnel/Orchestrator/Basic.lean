import Grapnel.Delivery.Config
import Grapnel.Delivery.Channel
import Grapnel.Injector.Basic
import Grapnel.Patch.Interceptor

namespace Grapnel

inductive Route where
  | remote
  | near
deriving DecidableEq, Inhabited

structure Job where
  source : String
  name : String
deriving DecidableEq, Inhabited

structure Orchestrator (D W : Type) where
  injector : Injector D W
  thread : EngineThread
  interceptor : Interceptor
  socketPath : String
  jobs : List Job
  isRunning : Bool
  post : Post

/-- How far the handling of a script has come. -/
inductive Dispatch where
  | routing
  | beginning
  | delivering
  | ending (delivered : Bool)
  | executing
  | finished (result : Except EngineFault Route)
deriving Inhabited

namespace Orchestrator

variable {D W : Type} (tools : InjectorTools D W)

def create (injector : Injector D W) (engine : Engine) (arch : Architecture)
    (config : OrchestratorConfig) (post : Post) : Except EngineFault (Orchestrator D W) :=
  let (started, thread, files) := (EngineThread.ofEngine engine).onFiles post.files fun t =>
    let (r, e) := t.engine.init
    (r, .ofEngine e)
  match started with
  | .error fault => .error fault
  | .ok _ => .ok {
      injector := if config.backgroundScan then injector.startBackground.2 else injector
      thread
      interceptor := .create arch
      socketPath := config.socketPath
      jobs := []
      isRunning := true
      post := { post with files } }

def route (o : Orchestrator D W) : Route :=
  if o.injector.mode = .full && o.post.exists? o.socketPath then .remote else .near

/-- Carries out an operation of the injector. -/
def inject (o : Orchestrator D W) (op : InjectorOperation) :
    Except Trap Bool × Orchestrator D W :=
  let (r, _, injector) := o.injector.run tools op
  (r, { o with injector })

/-- One step of handling a script. What is not delivered runs in the engine at hand. -/
def dispatchStep (job : Job) (o : Orchestrator D W) : Dispatch → Dispatch × Orchestrator D W
  | .routing => (if o.route = .remote then .beginning else .executing, o)
  | .beginning =>
    match o.inject tools .beginExecution with
    | (.ok true, o) => (.delivering, o)
    | (_, o) => (.executing, o)
  | .delivering =>
    let (r, post) := o.post.deliver o.socketPath job.source.toUTF8.toList
    (.ending r.isOk, { o with post })
  | .ending delivered =>
    let (_, o) := o.inject tools .endExecution
    (if delivered then .finished (.ok .remote) else .executing, o)
  | .executing =>
    let (r, thread, files) := o.thread.onFiles o.post.files fun t =>
      t.execute (Guest.text job.source) job.name
    (.finished (r.map fun _ => .near), { o with thread, post := { o.post with files } })
  | .finished result => (.finished result, o)

/-- The most steps that handling a script takes. -/
def dispatchSteps : Nat := 5

def dispatchFor (job : Job) : Nat → Dispatch → Orchestrator D W → Dispatch × Orchestrator D W
  | 0, d, o => (d, o)
  | n + 1, d, o =>
    let (d, o) := o.dispatchStep tools job d
    dispatchFor job n d o

def dispatch (o : Orchestrator D W) (job : Job) : Except EngineFault Route × Orchestrator D W :=
  match dispatchFor tools job dispatchSteps .routing o with
  | (.finished result, o) => (result, o)
  | (_, o) => (.error .notRunning, o)

def submit (o : Orchestrator D W) (job : Job) : Orchestrator D W :=
  { o with jobs := o.jobs ++ [job] }

def tick (o : Orchestrator D W) : Orchestrator D W :=
  let (_, thread, files) := o.thread.onFiles o.post.files fun t => ((), t.tick)
  { o with thread, post := { o.post with files } }

/-- One round of the worker: it handles the oldest script that waits and runs the tasks that are due,
unless it was told to stop or still runs a script. -/
def work (o : Orchestrator D W) : Orchestrator D W :=
  if o.isRunning && !o.thread.isBusy then
    match o.jobs with
    | [] => o.tick
    | job :: jobs =>
      let (_, o) := { o with jobs }.dispatch tools job
      if o.thread.isBusy then o else o.tick
  else o

/-- Stops the worker and the background and drops the machine and the scripts that wait; once is
enough. -/
def shutdown (o : Orchestrator D W) : Orchestrator D W :=
  if o.isRunning then
    { o with
      thread := o.thread.interrupt.shutdown
      injector := o.injector.stopBackground
      jobs := []
      isRunning := false }
  else o

end Orchestrator

end Grapnel
