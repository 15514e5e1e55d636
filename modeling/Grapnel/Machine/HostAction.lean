import Grapnel.Machine.Action

namespace Grapnel

open Guest

/-- The body of a host function: it may fail with a failure instead of a guest value. -/
abbrev HostAction := ExceptT Failure Action

namespace HostAction

/-- An action that fails with guest values only. -/
def guest {α : Type} (a : Action α) : HostAction α := ExceptT.lift a

def traceback : String := "stack traceback:\n\t[C]: in ?"

def raise {α : Type} (failure : Failure) : Action α := do
  let u ← Action.onHeap (·.newUserdata (.failure (.wrapped traceback failure)))
  Action.fail (.userdata u)

/-- Carries out a host action; its failure is raised as an object. -/
def perform (a : HostAction (List Value)) : Action (List Value) := do
  match ← a.run with
  | .ok results => return results
  | .error failure => raise failure

/-- Carries out an action whose errors no handler of the guest gets to see. -/
def isolated {α : Type} (a : Action α) : Action (Except Value α) := do
  let before ← get
  let frame : Frame := ⟨.native true, before.depth + 1, before.used⟩
  set { before with frames := frame :: before.frames }
  let result ← tryCatch (Except.ok <$> a) fun error => pure (.error error)
  modify fun m => { m with frames := before.frames }
  return result

/-- A guest text for the host: up to its first NUL, with damage replaced. -/
def hostText (s : Text) : String := Utf8.lossy (untilNul s).toList

/-- The failure that an error value stands for. If its text cannot be made, the error of that takes
its place, at most `fuel` times. -/
def failureOf : (fuel : Nat) → Value → Action Failure
  | 0, _ => return .raised ""
  | fuel + 1, error => do
    let carried : Option Failure ← match error with
      | .userdata u => do
        match (← Action.heap).userdatum u with
        | .failure f => pure (some f)
        | _ => pure none
      | _ => pure none
    match carried with
    | some f => return f
    | none =>
      match ← isolated (Action.toText error) with
      | .ok s => return .raised (hostText s)
      | .error error => failureOf fuel error

/-- Calls a function; its error comes back as a failure. -/
def call (f : Value) (args : List Value) : HostAction (List Value) := do
  match ← guest (Action.callSealed f args) with
  | .ok results => return results
  | .error error => throw (← guest (failureOf 10 error))

def typeName (heap : Heap) : Value → String
  | .integer _ => "integer"
  | .userdata u =>
    match heap.userdatum u with
    | .failure _ => "error"
    | _ => "userdata"
  | v => v.typeName

/-- An argument that cannot be converted. -/
def refuse {α : Type} (c : NativeCall) (i : Nat) (target reason : String) : HostAction α := do
  let heap ← guest Action.heap
  throw (.argument i (.conversion (typeName heap (c.arg i)) target (some reason)))

def notNumber : String := "expected number or string coercible to number"

def notText : String := "expected string or number"

def double (c : NativeCall) (i : Nat) : HostAction Double := do
  match (c.arg i).coerced? with
  | some n => return n.toDouble
  | none => refuse c i "f64" notNumber

def optionalDouble (c : NativeCall) (i : Nat) : HostAction (Option Double) :=
  if c.isAbsent i then return none else some <$> double c i

/-- A natural number below `2 ^ 64`; what is behind the point is cut off. -/
def word (c : NativeCall) (i : Nat) : HostAction Nat := do
  match (c.arg i).coerced? with
  | none => refuse c i "u64" notNumber
  | some n =>
    let whole? := match n with
      | .integer n => some n.toInt
      | .float x => x.truncate?
    match whole? with
    | some n => if 0 ≤ n ∧ n < 2 ^ 64 then return n.toNat else refuse c i "u64" "out of range"
    | none => refuse c i "u64" "out of range"

def bytes (c : NativeCall) (i : Nat) : HostAction Text := do
  match (c.arg i).text? with
  | some s => return s
  | none => refuse c i "string" notText

def string (c : NativeCall) (i : Nat) : HostAction String := do
  match (c.arg i).text? with
  | some s =>
    match Utf8.decode s.toList with
    | .ok s => return s
    | .error fault => refuse c i "String" fault.message
  | none => refuse c i "String" notText

def optionalString (c : NativeCall) (i : Nat) : HostAction (Option String) :=
  if c.isAbsent i then return none else some <$> string c i

/-- A function that a primitive expects as the argument at a position of its own. -/
def function (v : Value) (primitive : String) (position : Nat) : HostAction FunctionRef := do
  match v with
  | .function f => return f
  | v =>
    let heap ← Action.heap
    throw (.mismatch ⟨primitive, position, "function", typeName heap v⟩)

end HostAction

end Grapnel
