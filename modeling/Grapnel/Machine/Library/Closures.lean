import Grapnel.Machine.HostAction

namespace Grapnel

open Guest HostAction

namespace ClosureLibrary

/-- Makes a function that the engine answers for. -/
def manufacture (f : Function) : HostAction (List Value) := do
  let f ← guest (Action.onHeap (·.newFunction f))
  modify fun m => { m with closures := m.closures.mark f }
  return [.function f]

def hook (c : NativeCall) : HostAction (List Value) := do
  let hooked ← function (c.arg 1) "hookfunction" 1
  let replacement ← function (c.arg 2) "hookfunction" 2
  let previous ← modifyGet fun (m : Machine) =>
    let (previous, heap, closures) := m.closures.hook m.heap m.globals hooked replacement
    (previous, { m with heap, closures })
  return [.function previous]

def wrap (c : NativeCall) : HostAction (List Value) := do
  manufacture (.forwarder (← function (c.arg 1) "newcclosure" 1))

def copy (c : NativeCall) : HostAction (List Value) := do
  let f ← function (c.arg 1) "clonefunction" 1
  let copy ← modifyGet fun (m : Machine) =>
    let (copy, heap) := m.heap.duplicate m.globals f
    (copy, { m with heap, closures := m.closures.mark copy })
  return [.function copy]

def isOurs (c : NativeCall) : HostAction (List Value) := do
  let f ← function (c.arg 1) "isourclosure" 1
  let m ← get
  return [.boolean (m.closures.isOurs m.heap f)]

/-- Whether the innermost frame that decides it belongs to code of the host. -/
def callerIsHost (m : Machine) : List Frame → Bool
  | [] => m.host.config.primary
  | f :: rest =>
    match f.call with
    | .guest a =>
      let source := ClosureRegistry.sourceOf m.heap a.function
      if source.startsWith "@" then false
      else if (SourceTag.classify? source).any (·.isHost) then true
      else callerIsHost m rest
    | _ => callerIsHost m rest

def checkCaller : HostAction (List Value) := do
  let m ← get
  return [.boolean (callerIsHost m m.frames)]

def body (f : ClosureFunction) (c : NativeCall) : HostAction (List Value) :=
  match f with
  | .hook => hook c
  | .wrap => wrap c
  | .copy => copy c
  | .isOurs => isOurs c
  | .callerIsHost => checkCaller

end ClosureLibrary

end Grapnel
