import Grapnel.Guest.Tree

namespace Grapnel.Guest

inductive VariableKind where
  | plain
  | readOnly
  /-- Read-only with a value known while reading. -/
  | known (value : Expr)
deriving Inhabited

structure Variable where
  name : Text
  kind : VariableKind
  slot : Nat
deriving Inhabited

structure Label where
  name : Text
  id : Nat
  line : Nat
  active : Nat
deriving Inhabited

structure PendingJump where
  name : Text
  id : Nat
  line : Nat
  active : Nat
deriving Inhabited

structure BlockScope where
  active : Nat
  labels : List Label
  jumps : List PendingJump
deriving Inhabited

structure CapturedVariable where
  capture : Capture
  readOnly : Bool
deriving Inhabited

structure FunctionScope where
  line : Nat
  isMain : Bool
  variadic : Bool
  inForce : List Variable
  /-- Declared but not in force yet, innermost first. -/
  coming : List Variable
  captured : Array CapturedVariable
  blocks : List BlockScope
  resolved : List (Nat × Nat)
  slots : Nat
deriving Inhabited

inductive Resolution where
  | slot (index : Nat) (readOnly : Bool)
  | captured (index : Nat) (readOnly : Bool)
  | known (value : Expr)
  | environment
deriving Inhabited

namespace FunctionScope

def openMain : FunctionScope :=
  { line := 0, isMain := true, variadic := true, inForce := [], coming := [],
    captured := #[⟨⟨text "_ENV", true, 0⟩, false⟩], blocks := [⟨0, [], []⟩], resolved := [],
    slots := 0 }

def openAt (line : Nat) : FunctionScope :=
  { line := line, isMain := false, variadic := false, inForce := [], coming := [],
    captured := #[], blocks := [⟨0, [], []⟩], resolved := [], slots := 0 }

def usedSlots (f : FunctionScope) : Nat :=
  match f.inForce with
  | [] => 0
  | v :: _ => match v.kind with
    | .known _ => v.slot
    | _ => v.slot + 1

/-- Where the function is, for a message. -/
def place (f : FunctionScope) : String :=
  if f.isMain then "main function" else "function at line " ++ toString f.line

end FunctionScope

/-- Looks a name up from the innermost function outward; every function between the variable and
its use captures it. `none` is an excess of captured variables. -/
def resolveName (name : Text) : List FunctionScope → Resolution × List FunctionScope
  | [] => (.environment, [])
  | f :: outer =>
    match f.inForce.find? (·.name == name) with
    | some v =>
      match v.kind with
      | .plain => (.slot v.slot false, f :: outer)
      | .readOnly => (.slot v.slot true, f :: outer)
      | .known value => (.known value, f :: outer)
    | none =>
      match f.captured.findIdx? (·.capture.name == name) with
      | some i => (.captured i (f.captured[i]?.any (·.readOnly)), f :: outer)
      | none =>
        let add (fromSlot : Bool) (index : Nat) (readOnly : Bool) (outer : List FunctionScope) :=
          (Resolution.captured f.captured.size readOnly,
            { f with captured := f.captured.push ⟨⟨name, fromSlot, index⟩, readOnly⟩ } :: outer)
        match resolveName name outer with
        | (.slot index readOnly, outer) => add true index readOnly outer
        | (.captured index readOnly, outer) => add false index readOnly outer
        | (.known value, outer) => (.known value, f :: outer)
        | (.environment, outer) => (.environment, f :: outer)

end Grapnel.Guest
