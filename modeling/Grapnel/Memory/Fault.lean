import Grapnel.FileTree.Fault
import Grapnel.Memory.Pattern

namespace Grapnel

inductive MemoryFault where
  | driver (message : String)
  | system (message : String)
  | io (fault : IoFault)
  | accessDenied (process : Nat)
  | notAttached
  | handleInvalidated
  | notFound (a : Address)
  /-- Fewer bytes were moved than expected. -/
  | transfer (a : Address) (expected transferred : Nat)
  /-- A step of a pointer chain led nowhere. -/
  | nullDereference (a : Address) (index : Nat)
  | pattern (fault : PatternFault)
  | notSupported
  | outOfBounds
  | other (message : String)
deriving DecidableEq, Inhabited

namespace MemoryFault

def message : MemoryFault → String
  | .driver m => m
  | .system m => m
  | .io fault => fault.message
  | .accessDenied process => "Access denied to process " ++ toString process
  | .notAttached => "No process attached"
  | .handleInvalidated => "Process handle was invalidated"
  | .notFound a => "Nothing readable at " ++ a.text
  | .transfer a expected transferred =>
    "Short transfer at " ++ a.text ++ " (" ++ toString transferred ++ " of " ++ toString expected
      ++ " bytes)"
  | .nullDereference a index =>
    "Null dereference at " ++ a.text ++ " (offset #" ++ toString index ++ ")"
  | .pattern fault => fault.message
  | .notSupported => "Operation not supported."
  | .outOfBounds => "Out of bounds"
  | .other m => m

end MemoryFault

/-- Why an operation on memory gave no answer. -/
inductive Stop where
  | refused (fault : MemoryFault)
  | trapped (trap : Trap)
deriving DecidableEq, Inhabited

end Grapnel
