import Grapnel.Machine.Coroutine
import Grapnel.Machine.HostAction

namespace Grapnel

open Guest HostAction

namespace SignalLibrary

def create (c : NativeCall) : HostAction (List Value) := do
  let name ← string c 1
  let id ← modifyGet fun (m : Machine) =>
    let (id, bus) := m.bus.create name
    (id, { m with bus })
  return [.ofNat id.number]

def connect (c : NativeCall) : HostAction (List Value) := do
  let id ← word c 1
  let callback ← function (c.arg 2) "Signal:Connect" 1
  let handle? ← modifyGet fun (m : Machine) =>
    let (handle?, bus) := m.bus.connect ⟨id⟩ callback
    (handle?, { m with bus })
  match handle? with
  | some handle => return [.userdata (← guest (Action.onHeap (·.newUserdata (.connection handle))))]
  | none => throw (.raised "signal was destroyed")

def report (r : Report) : Action Unit := modify fun m => { m with host := m.host.report r }

/-- Runs a callback of a signal in a coroutine of its own and reports its failure. -/
def runCallback (signal : String) (args : List Value) (callback : FunctionRef) : Action Unit := do
  match ← Coroutine.resume (← Coroutine.create callback) args with
  | .ok _ => pure ()
  | .error error =>
    let failure ← failureOf 10 error
    report (.error ((ScriptError.ofFailure .runtime failure signal).withContext "signal"))

/-- The machine as a world in which callbacks run. -/
def delivery (run : Machine → Machine) (signal : String) (args : List Value) :
    Delivery Machine FunctionRef where
  bus m := m.bus
  invoke callback m := ((runCallback signal args callback).run run m).2

def fire (c : NativeCall) : HostAction (List Value) := do
  let id ← word c 1
  let run ← readThe (Machine → Machine)
  let invoked ← modifyGet fun (m : Machine) =>
    (delivery run ((m.bus.name? ⟨id⟩).getD "") (c.args.drop 1)).fire ⟨id⟩ m
  return [.ofNat invoked]

def destroy (c : NativeCall) : HostAction (List Value) := do
  let id ← word c 1
  let found ← modifyGet fun (m : Machine) =>
    let (found, bus) := m.bus.destroy ⟨id⟩
    (found, { m with bus })
  return [.boolean found]

/-- The connection that a method was called on. -/
def connectionOf (c : NativeCall) : HostAction ConnectionHandle := do
  let heap ← Action.heap
  let other (v : Value) : HostAction ConnectionHandle :=
    throw (.receiver "Connection.Disconnect"
      (.conversion (typeName heap v) "userdata" (some "expected userdata of type 'Connection'")))
  match c.arg? 1 with
  | none =>
    throw (.receiver "Connection.Disconnect" (.conversion "missing argument" "userdata" none))
  | some (.userdata u) =>
    match heap.userdatum u with
    | .connection h => return h
    | _ => other (.userdata u)
  | some v => other v

def disconnect (c : NativeCall) : HostAction (List Value) := do
  let handle ← connectionOf c
  modify fun m => { m with bus := (m.bus.disconnect handle).2 }
  return []

def connectionIndex (c : NativeCall) : HostAction (List Value) := do
  let m ← get
  let handle ← connectionOf c
  if c.arg 2 == .ofString "Connected" then return [.boolean (m.bus.isConnected handle)]
  else if c.arg 2 == .ofString "Disconnect" then return [m.native (.signal .disconnect)]
  else return [.nil]

def body (f : SignalFunction) (c : NativeCall) : HostAction (List Value) :=
  match f with
  | .create => create c
  | .connect => connect c
  | .fire => fire c
  | .destroy => destroy c
  | .connectionIndex => connectionIndex c
  | .disconnect => disconnect c

end SignalLibrary

end Grapnel
