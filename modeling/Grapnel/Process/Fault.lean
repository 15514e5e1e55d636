import Grapnel.Memory.Fault

namespace Grapnel

inductive SourceFault where
  | io (fault : IoFault)
  | malformedMaps (line : Nat) (reason : String)
  | malformedStat (process : Nat)
deriving DecidableEq, Inhabited

namespace SourceFault

def message : SourceFault → String
  | .io fault => fault.message
  | .malformedMaps line reason =>
    "Malformed maps entry on line " ++ toString line ++ ": " ++ reason
  | .malformedStat process => "Malformed stat for process " ++ toString process

def toMemoryFault : SourceFault → MemoryFault
  | .io fault => .io fault
  | f => .system f.message

end SourceFault

end Grapnel
