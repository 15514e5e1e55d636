import Grapnel.Memory.Address

namespace Grapnel

inductive InjectionState where
  | idle
  | scanning
  | found
  | attaching
  | injected
  | detached
  | failed
  | executing
deriving DecidableEq, Inhabited

namespace InjectionState

def name : InjectionState → String
  | .idle => "Idle"
  | .scanning => "Scanning"
  | .found => "Found"
  | .attaching => "Attaching"
  | .injected => "Injected"
  | .detached => "Detached"
  | .failed => "Failed"
  | .executing => "Executing"

def text (s : InjectionState) : String := s.name.map Char.toLower

def isAttached : InjectionState → Bool
  | .injected | .executing => true
  | _ => false

def canScan : InjectionState → Bool
  | .idle | .found | .detached | .failed => true
  | _ => false

end InjectionState

inductive InjectionMode where
  | localOnly
  | full
deriving DecidableEq, Inhabited

namespace InjectionMode

def name : InjectionMode → String
  | .localOnly => "LocalOnly"
  | .full => "Full"

end InjectionMode

inductive FailureReason where
  | notFound
  | inaccessible
  | vmNotLocated
deriving DecidableEq, Inhabited

namespace FailureReason

def name : FailureReason → String
  | .notFound => "NotFound"
  | .inaccessible => "FoundButInaccessible"
  | .vmNotLocated => "VmNotLocated"

end FailureReason

/-- Where the signature of the virtual machine was found, and what was scanned until then. -/
structure VmLocation where
  address : Address
  regionStart : Address
  regionPath : Option String
  regionsScanned : Nat
  bytesScanned : Nat
  validated : Bool
deriving DecidableEq, Inhabited

/-- Times are in nanoseconds. -/
structure InjectorConfig where
  scanInterval : Nat
  vmSignature : String
  maxRegionSize : Nat
  /-- Whether the background attaches to a target that it finds. -/
  autoAttach : Bool
deriving DecidableEq, Inhabited

def second : Nat := 10 ^ 9

def millisecond : Nat := 10 ^ 6

namespace InjectorConfig

def standard : InjectorConfig := ⟨2 * second, "1B 4C 75", 512 * 2 ^ 20, true⟩

end InjectorConfig

end Grapnel
