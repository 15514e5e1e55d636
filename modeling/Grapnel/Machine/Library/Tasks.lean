import Grapnel.Machine.HostAction

namespace Grapnel

open Guest HostAction

namespace TaskLibrary

/-- The longest delay in seconds: a year. -/
def maxDelay : Double := Double.ofInt (365 * 24 * 60 * 60)

/-- Guest seconds as nanoseconds, to the nearest; what is no positive number is no delay. -/
def nanoseconds (seconds : Double) : Nat :=
  if seconds.isNaN || seconds.le Double.zero then 0
  else
    let seconds := if maxDelay.lt seconds then maxDelay else seconds
    let (num, den) := seconds.fraction
    Decimal.roundedCount num den (-9)

def schedule (c : NativeCall) : HostAction (List Value) := do
  let kind ← string c 1
  let seconds ← double c 2
  let (kind, primitive, position) : Task.Kind × String × Nat :=
    if kind = "spawn" then (.spawn, "task.spawn", 1)
    else if kind = "defer" then (.defer, "task.defer", 1)
    else (.delay, "task.delay", 2)
  let body : Task.Body ThreadRef FunctionRef ← match c.arg 3 with
    | .function f => pure (.function f)
    | .thread t => pure (.thread t)
    | v => do
      let heap ← Action.heap
      throw (.mismatch ⟨primitive, position, "function or thread", typeName heap v⟩)
  let id ← modifyGet fun (m : Machine) =>
    let (id, scheduler) :=
      m.scheduler.schedule kind body (c.args.drop 3) m.host.clock (nanoseconds seconds)
    (id, { m with scheduler })
  return [.ofNat id.number]

def wait (c : NativeCall) : HostAction (List Value) := do
  let seconds ← double c 2
  match c.arg 1 with
  | .thread t =>
    modify fun m =>
      let (_, scheduler) :=
        m.scheduler.schedule .delay (.thread t) [] m.host.clock (nanoseconds seconds)
      { m with scheduler }
    return []
  | _ => refuse c 1 "thread" "expected thread"

def cancel (c : NativeCall) : HostAction (List Value) := do
  let id ← word c 1
  let found ← modifyGet fun (m : Machine) =>
    let (found, scheduler) := m.scheduler.cancel ⟨id⟩
    (found, { m with scheduler })
  return [.boolean found]

def sleep (c : NativeCall) : HostAction (List Value) := do
  let seconds := (← optionalDouble c 1).getD Double.zero
  modify fun m =>
    { m with host := { m.host with clock := m.host.clock + nanoseconds seconds } }
  return []

def body (f : TaskFunction) (c : NativeCall) : HostAction (List Value) :=
  match f with
  | .schedule => schedule c
  | .wait => wait c
  | .cancel => cancel c
  | .sleep => sleep c

end TaskLibrary

end Grapnel
