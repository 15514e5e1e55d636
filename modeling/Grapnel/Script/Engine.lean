import Grapnel.Machine.Start

namespace Grapnel

open Guest

/-- Why an engine refuses, as opposed to what a script does wrong in the guest. -/
inductive EngineFault where
  | notRunning
  | script (e : ScriptError)
  | machine (f : Failure)
  | workspace (fault : WorkspaceFault)
deriving DecidableEq, Inhabited

namespace EngineFault

def message : EngineFault → String
  | .notRunning => "Engine is not running"
  | .script e => e.display
  | .machine f => f.message
  | .workspace fault => fault.message

end EngineFault

/-- The surroundings of an engine are those of its machine while there is one. -/
inductive Engine where
  | idle (host : Host)
  | running (m : Machine)
deriving Inhabited

namespace Engine

/-- The tasks of a machine run in its own coroutines. -/
def coroutines (run : Machine → Machine) :
    Coroutines Machine ThreadRef FunctionRef Value Failure where
  scheduler m := m.scheduler
  setScheduler scheduler m := { m with scheduler }
  create f m :=
    match (Coroutine.create f).run run m with
    | (.ok t, m) => (.ok t, m)
    | (.error _, m) => (.error .notResumable, m)
  isResumable t m := Coroutine.isResumable m.heap t
  resume t args m :=
    match (resumed t args).run run m with
    | (.ok result, m) => (result, m)
    | (.error _, m) => (.error .notResumable, m)
  elapsed nanoseconds := .float (ClockLibrary.seconds nanoseconds)
where
  resumed (t : ThreadRef) (args : List Value) : Action (Except Failure Unit) := do
    match ← Coroutine.resume t args with
    | .ok _ => return .ok ()
    | .error error => return .error (← HostAction.failureOf 10 error)

/-- Compiles a script and runs it in a coroutine of its own until it first waits or ends. A failure
is reported and returned. -/
def runScript (source : Text) (name : String) : Action (Except ScriptError Unit) := do
  match ← (ChunkLibrary.chunkFunction (SourceTag.input.namedChunk name) source).run with
  | .error failure => return .error (← Machine.reportFailure .compile failure name none)
  | .ok f =>
    match ← Coroutine.resume (← Coroutine.create f) [] with
    | .ok _ => return .ok ()
    | .error error =>
      let failure ← HostAction.failureOf 10 error
      return .error (← Machine.reportFailure .runtime failure name none)

/-- Runs the tasks that are due and then reports the ones that failed. -/
def runTasks (now : Nat) : Action Nat := do
  let run ← readThe (Machine → Machine)
  let report ← modifyGet (Coroutines.runReady (coroutines run) now)
  for (_, failure) in report.failures do
    discard (Machine.reportFailure .runtime failure "task" (some "task"))
  return report.resumed

/-- What an action of the host came to. A value that a guest raised past it has nobody to resume. -/
def answer {α : Type} : Except Value (Except Failure α) → Except Failure α
  | .ok result => result
  | .error _ => .error .notResumable

def prepare : HostAction Unit := do
  Machine.harden
  HostAction.guest Machine.runEnvironment

def start (host : Host) (workspace : Workspace) : Except Failure Unit × Machine :=
  ((Machine.bare host workspace).perform prepare.run).map answer id

def host : Engine → Host
  | .idle host => host
  | .running m => m.host

def mapHost (f : Host → Host) : Engine → Engine
  | .idle host => .idle (f host)
  | .running m => .running { m with host := f m.host }

def create (config : EngineConfig) (files : Node) (stopOn : Option String) : Engine :=
  .idle ⟨config, files, 0, .lowered, stopOn, []⟩

def isRunning : Engine → Bool
  | .idle _ => false
  | .running _ => true

/-- Opens the workspace and starts a machine, unless there is one. -/
def init : Engine → Except EngineFault Unit × Engine
  | .running m => (.ok (), .running m)
  | .idle host =>
    let (opened, files) := (Workspace.openAt (Path.names host.config.workspace)).run host.files
    let host := { host with files }
    match opened with
    | .error fault => (.error (.workspace fault), .idle host)
    | .ok workspace =>
      match start host workspace with
      | (.ok _, m) => (.ok (), .running m)
      | (.error failure, m) => (.error (.machine failure), .idle m.host)

/-- Drops the machine with its tasks and signals. -/
def shutdown (e : Engine) : Engine := .idle e.host

def reset (e : Engine) : Except EngineFault Unit × Engine := e.shutdown.init

/-- Asks the script that runs to stop; the request holds until the next script is handed in. -/
def requestStop (e : Engine) : Engine := e.mapHost fun h => { h with stop := .raised }

def execute (e : Engine) (source : Text) (name : String) : Except EngineFault Unit × Engine :=
  match e with
  | .idle host => (.error .notRunning, .idle host)
  | .running m =>
    let m := { m with host := { m.host with stop := m.host.stop.lower } }
    match m.perform (runScript source name) with
    | (.ok (.ok _), m) => (.ok (), .running m)
    | (.ok (.error error), m) => (.error (.script error), .running m)
    | (.error _, m) => (.error (.machine .notResumable), .running m)

/-- Runs every task that is due at a time; answers how many were resumed. -/
def tickAt (e : Engine) (now : Nat) : Nat × Engine :=
  match e with
  | .idle host => (0, .idle host)
  | .running m =>
    match m.perform (runTasks now) with
    | (.ok resumed, m) => (resumed, .running m)
    | (.error _, m) => (0, .running m)

def tick (e : Engine) : Nat × Engine := e.tickAt e.host.clock

def pendingTasks : Engine → Nat
  | .idle _ => 0
  | .running m => m.scheduler.length

def nextDue? : Engine → Option Nat
  | .idle _ => none
  | .running m => m.scheduler.nextDue?

def hookCount : Engine → Nat
  | .idle _ => 0
  | .running m => m.closures.hookCount

def advance (e : Engine) (nanoseconds : Nat) : Engine :=
  e.mapHost fun h => { h with clock := h.clock + nanoseconds }

/-- What the observer was told since it was last asked, in order. -/
def takeReports (e : Engine) : List Report × Engine :=
  (e.host.reports.reverse, e.mapHost fun h => { h with reports := [] })

end Engine

end Grapnel
