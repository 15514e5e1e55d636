import Grapnel.Machine.Step
import Grapnel.Script.Prelude

namespace Grapnel

open Guest

namespace Machine

/-- The function for a builtin, made when it is first asked for. -/
def register (m : Machine) (b : Builtin) : FunctionRef × Machine :=
  match m.natives.lookup b with
  | some f => (f, m)
  | none =>
    let (f, heap) := m.heap.newFunction (.builtin b)
    (f, { m with heap, natives := (b, f) :: m.natives })

def setField (m : Machine) (t : TableRef) (name : String) (v : Value) : Machine :=
  { m with heap := m.heap.updateTable t (·.set (.string (text name)) v) }

def installOne (t : TableRef) (m : Machine) (entry : String × Builtin) : Machine :=
  let (f, m) := m.register entry.2
  m.setField t entry.1 (.function f)

/-- Stores the functions of a library in a table. -/
def install (m : Machine) (t : TableRef) (library : Builtin.Library) : Machine :=
  library.foldl (installOne t) m

/-- Stores functions of the host, which the engine answers for. -/
def installOwn (m : Machine) (t : TableRef) (library : Builtin.Library) : Machine :=
  library.foldl (fun m entry =>
    let (f, m) := m.register entry.2
    { m with closures := m.closures.mark f }.setField t entry.1 (.function f)) m

def newTable (m : Machine) : TableRef × Machine :=
  let (t, heap) := m.heap.newTable .empty
  (t, { m with heap })

/-- Makes a library and the global that holds it. -/
def addLibrary (m : Machine) (entry : String × Builtin.Library) : Machine :=
  let (t, m) := m.newTable
  let m := (m.install t entry.2).setField m.globals entry.1 (.table t)
  { m with libraries := m.libraries ++ [(entry.1, t)] }

def library (m : Machine) (name : String) : TableRef := (m.libraries.lookup name).getD m.globals

/-- Values of libraries that are no functions. -/
def addConstants (m : Machine) : Machine :=
  let math := m.library "math"
  let largest : Int64 := Int64.ofInt (2 ^ 63 - 1)
  let anyCodepoint : Text := ⟨#[0x5B, 0x00, 0x2D, 0x7F, 0xC2, 0x2D, 0xFD, 0x5D, 0x5B, 0x80, 0x2D,
    0xBF, 0x5D, 0x2A]⟩
  ((((m.setField math "pi" (.float Double.pi)).setField math "huge" (.float Double.infinity)).setField
    math "maxinteger" (.integer largest)).setField math "mininteger" (.integer (-largest - 1))).setField
    (m.library "utf8") "charpattern" (.string anyCodepoint)

/-- Makes the metatables of texts, connections and failures. -/
def addMetatables (m : Machine) : Machine :=
  let (texts, m) := m.newTable
  let m := (m.install texts Builtin.stringEvents).setField texts "__index"
    (.table (m.library "string"))
  let (connections, m) := m.newTable
  let m := m.install connections [("__index", .signal .connectionIndex)]
  let m := (m.setField connections "__name" (.ofString "Connection")).setField connections
    "__metatable" (.boolean false)
  let (failures, m) := m.newTable
  let m := (m.install failures [("__tostring", .host .failureText)]).setField failures
    "__metatable" (.boolean false)
  { m with heap := { m.heap with
      textMeta := some texts
      connectionMeta := some connections
      failureMeta := some failures } }

/-- A machine with nothing but its main coroutine and an empty table of globals. -/
def blank (host : Host) (workspace : Workspace) : Machine :=
  let (_, heap) := Heap.empty.newThread ⟨.running, 0⟩
  let (globals, heap) := heap.newTable .empty
  { heap, globals, libraries := [("_G", globals)], natives := [], thread := mainThread,
    frames := [], baseDepth := 0, control := .run, countdown := none,
    scheduler := .empty, bus := .empty, closures := .empty, workspace, host }

/-- Installs the guest's own libraries. -/
def furnish (m : Machine) : Machine :=
  let m := m.install m.globals Builtin.baseLibrary
  let m := (m.setField m.globals "_G" (.table m.globals)).setField m.globals "_VERSION"
    (.ofString "Lua 5.4")
  let m := (Builtin.libraries.foldl addLibrary m).addConstants.addMetatables
  [Builtin.base .ipairsStep, .utf8 .codesStep, .signal .disconnect].foldl
    (fun m b => (m.register b).2) m

/-- A machine with the guest's own libraries, in its main coroutine. -/
def bare (host : Host) (workspace : Workspace) : Machine := (blank host workspace).furnish

/-- Compiles a chunk of the engine and calls it in the main coroutine. -/
def runChunk (tag : SourceTag) (source : Text) (args : List Value) : HostAction Unit := do
  let f ← ChunkLibrary.chunkFunction tag.chunkName source
  discard (HostAction.call (.function f) args)

/-- Makes the table of natives that only the prelude gets. -/
def prepare (m : Machine) : TableRef × Machine :=
  let (natives, m) := m.newTable
  let m := m.installOwn natives Builtin.preludeLibrary
  (natives, m.installOwn m.globals [("sleep", .task .sleep)])

/-- Lets a machine have the host's functions. From then on it looks at the stop flag. -/
def equip (m : Machine) : Machine :=
  let m := m.installOwn m.globals Builtin.hostLibrary
  { m with countdown := some (Coroutine.interval m) }

/-- Hardens a bare machine and lets it have the host's functions. -/
def harden : HostAction Unit := do
  let natives ← modifyGet prepare
  runChunk .sandbox Prelude.source [.table natives]
  modify equip

def reportFailure (kind : ScriptErrorKind) (failure : Failure) (source : String)
    (context : Option String) : Action ScriptError := do
  let error := { ScriptError.ofFailure kind failure source with context }
  modify fun m => { m with host := m.host.report (.error error) }
  return error

/-- Runs the embedder's own script, if there is one. Its failure is only reported. -/
def runEnvironment : Action Unit := do
  match (← get).host.config.environmentBootstrap with
  | none => pure ()
  | some source =>
    match ← (runChunk .environment (text source) []).run with
    | .ok _ => pure ()
    | .error failure =>
      discard (reportFailure .runtime failure "environment" (some "bootstrap"))

end Machine

end Grapnel
