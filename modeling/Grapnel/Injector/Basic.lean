import Grapnel.Injector.State
import Grapnel.Memory.Basic
import Grapnel.Process.Locator

namespace Grapnel

/-- What an injector works with, all of it in one world. -/
structure InjectorTools (D W : Type) where
  source : ProcessSource W
  openMemory : Nat → W → Except MemoryFault D × W
  driver : MemoryDriver D W

/-- It looks for its target, opens the memory of the target, looks there for the virtual machine of the
guest, and notices when the handle is lost. -/
structure Injector (D W : Type) where
  locator : LocatorConfig
  config : InjectorConfig
  signature : BytePattern
  memory : Memory D W
  state : InjectionState
  mode : InjectionMode
  target : Option ProcessInfo
  vm : Option VmLocation
  lastFailure : Option FailureReason
  /-- The changes of state that the observer is still to be told of. -/
  untold : List (InjectionState × String)
  inBackground : Bool

inductive InjectorOperation where
  | scan
  | attach
  | detach
  | check
  | beginExecution
  | endExecution
  | round
deriving DecidableEq, Inhabited

namespace Injector

variable {D W : Type}

def create (locator : LocatorConfig) (config : InjectorConfig) (world : W) :
    Except PatternFault (Injector D W) := do
  let signature ← BytePattern.ofText config.vmSignature
  return {
    locator, config, signature
    memory := .create world
    state := .idle
    mode := .localOnly
    target := none
    vm := none
    lastFailure := none
    untold := []
    inBackground := false }

def transition (i : Injector D W) (state : InjectionState) (message : String) : Injector D W :=
  { i with state, untold := i.untold ++ [(state, message)] }

def foundText (l : LocatedProcess) : String :=
  "found " ++ l.process.name ++ " (pid " ++ toString l.process.pid ++ ", " ++ l.method.name ++ ")"

def miss (i : Injector D W) (message : String) : Injector D W :=
  { i with target := none, lastFailure := some .notFound }.transition .idle message

variable (tools : InjectorTools D W)

/-- Looks for the target, unless the state forbids it; answers whether it was found. -/
def scan (i : Injector D W) : Bool × Injector D W :=
  if i.state.canScan then
    let i := i.transition .scanning "scanning for target"
    let (located, world) := Locator.locate i.locator tools.source i.memory.world
    let i := { i with memory := { i.memory with world } }
    match located with
    | .ok (some l) =>
      (true, { i with target := some l.process, lastFailure := none }.transition .found (foundText l))
    | .ok none => (false, i.miss "target not found")
    | .error fault => (false, i.miss ("target not found: " ++ fault.message))
  else (false, i)

/-- Scans regions of code that are not too large, one after the other, until the signature is found.
A region that cannot be scanned is passed over. -/
def locateFrom (signature : BytePattern) (maxSize scanned bytes : Nat) :
    List Region → MemoryWork D W (Option VmLocation)
  | [] => return none
  | r :: rs => do
    if !r.isCode then locateFrom signature maxSize scanned bytes rs
    else
      let size ← MemoryWork.checked r.size
      if maxSize < size then locateFrom signature maxSize scanned bytes rs
      else
        let scanned := scanned + 1
        let bytes ← MemoryWork.checked (addChecked bytes size)
        match ← tryCatch (MemoryWork.findPattern tools.driver signature r.start size) fun stop =>
            match stop with
            | .refused _ => return none
            | .trapped trap => throw (.trapped trap) with
        | some a => return some ⟨a, r.start, r.path, scanned, bytes, false⟩
        | none => locateFrom signature maxSize scanned bytes rs

/-- Where the virtual machine is, going by the regions that are known. -/
def locateVm (signature : BytePattern) (maxSize : Nat) : MemoryWork D W (Option VmLocation) := do
  locateFrom tools signature maxSize 0 0 (← MemoryWork.regions tools.driver false)

def fail (i : Injector D W) (message : String) : Injector D W :=
  { i with lastFailure := some .inaccessible }.transition .failed message

/-- Is attached from now on, with the virtual machine or without it. -/
def settle (i : Injector D W) (pid : Nat) : Option VmLocation → Injector D W
  | some vm =>
    { i with mode := .full, vm := some vm, lastFailure := none }.transition .injected
      ("attached to pid " ++ toString pid ++ ", guest VM at " ++ vm.address.text)
  | none =>
    { i with mode := .localOnly, vm := none, lastFailure := some .vmNotLocated }.transition .injected
      ("attached to pid " ++ toString pid ++ ", guest VM not located, local execution only")

/-- Opens the memory of a process and looks around in it. -/
def attachTo (i : Injector D W) (pid : Nat) : Except Trap Bool × Injector D W :=
  let i := i.transition .attaching ("attaching to pid " ++ toString pid)
  match tools.openMemory pid i.memory.world with
  | (.error fault, world) =>
    (.ok false, { i with memory := { i.memory with world } }.fail
      ("cannot open process " ++ toString pid ++ ": " ++ fault.message))
  | (.ok handle, world) =>
    match (MemoryWork.regions tools.driver true).run ({ i.memory with world }.attach handle) with
    | (.error (.trapped trap), memory) => (.error trap, { i with memory })
    | (.error (.refused fault), memory) =>
      (.ok false, { i with memory := memory.detach.2 }.fail
        ("cannot enumerate regions of process " ++ toString pid ++ ": " ++ fault.message))
    | (.ok _, memory) =>
      match (locateVm tools i.signature i.config.maxRegionSize).run memory with
      | (.error (.trapped trap), memory) => (.error trap, { i with memory })
      | (.error (.refused _), memory) => (.ok true, { i with memory }.settle pid none)
      | (.ok vm, memory) => (.ok true, { i with memory }.settle pid vm)

/-- Attaches to the target, which is looked for first unless it was found already; answers whether
there is a handle. -/
def attach (i : Injector D W) : Except Trap Bool × Injector D W :=
  if i.state.isAttached then (.ok true, i)
  else
    let (isFound, i) := if i.state = .found then (true, i) else i.scan tools
    match isFound, i.target with
    | true, some p => i.attachTo tools p.pid
    | _, _ => (.ok false, i)

/-- Gives the handle back; answers whether there was one. -/
def detach (i : Injector D W) : Bool × Injector D W :=
  if i.state.isAttached then
    (true, { i with memory := i.memory.detach.2, vm := none, mode := .localOnly }.transition .detached
      "detached")
  else (false, i)

/-- Drops a handle that does not serve any more, and the target with it. -/
def loseHandle (i : Injector D W) : Injector D W :=
  let i := { i with memory := i.memory.invalidate, vm := none, mode := .localOnly, target := none }
  if i.state = .idle then i else i.transition .idle "process handle lost"

/-- Enumerates the regions again; answers whether the handle serves. -/
def check (i : Injector D W) : Except Trap Bool × Injector D W :=
  if i.state.isAttached then
    match (MemoryWork.regions tools.driver true).run i.memory with
    | (.ok _, memory) => (.ok true, { i with memory })
    | (.error (.refused _), memory) => (.ok false, { i with memory }.loseHandle)
    | (.error (.trapped trap), memory) => (.error trap, { i with memory })
  else (.ok false, i)

def beginExecution (i : Injector D W) : Bool × Injector D W :=
  if i.state = .injected then (true, i.transition .executing "executing") else (false, i)

def endExecution (i : Injector D W) : Bool × Injector D W :=
  if i.state = .executing then (true, i.transition .injected "execution finished") else (false, i)

/-- Keeps the handle if there is one, and otherwise goes as far as the settings say. -/
def round (i : Injector D W) : Except Trap Bool × Injector D W :=
  if i.state.isAttached then i.check tools
  else if i.config.autoAttach then i.attach tools
  else if i.state = .found then (.ok false, i)
  else
    let (found, i) := i.scan tools
    (.ok found, i)

/-- Answers whether the background was off. -/
def startBackground (i : Injector D W) : Bool × Injector D W :=
  (!i.inBackground, { i with inBackground := true })

def stopBackground (i : Injector D W) : Injector D W := { i with inBackground := false }

def perform (i : Injector D W) : InjectorOperation → Except Trap Bool × Injector D W
  | .scan => certain (i.scan tools)
  | .attach => i.attach tools
  | .detach => certain i.detach
  | .check => i.check tools
  | .beginExecution => certain i.beginExecution
  | .endExecution => certain i.endExecution
  | .round => i.round tools
where
  certain (r : Bool × Injector D W) : Except Trap Bool × Injector D W := (.ok r.1, r.2)

/-- Carries out an operation and tells the observer. Nobody is told of an operation that was cut
short until another one is over. -/
def run (i : Injector D W) (op : InjectorOperation) :
    Except Trap Bool × List (InjectionState × String) × Injector D W :=
  match i.perform tools op with
  | (.ok answer, i) => (.ok answer, i.untold, { i with untold := [] })
  | (.error trap, i) => (.error trap, [], i)

end Injector

end Grapnel
