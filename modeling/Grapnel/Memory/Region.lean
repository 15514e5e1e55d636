import Grapnel.Memory.Access
import Grapnel.Memory.Address
import Grapnel.Text.Search

namespace Grapnel

/-- The addresses from `start` up to but not including `stop`. -/
structure Region where
  start : Address
  stop : Address
  access : Access
  shared : Bool
  offset : UInt64
  path : Option String
deriving DecidableEq, Inhabited

namespace Region

def size (r : Region) : Except Trap Nat := r.stop.distance r.start

def isEmpty (r : Region) : Bool := r.stop ≤ r.start

def contains (r : Region) (a : Address) : Bool := r.start ≤ a && a < r.stop

/-- Whether the region can be read and executed. -/
def isCode (r : Region) : Bool := r.access.contains .readExecute

def pathContains (r : Region) (fragment : String) : Bool :=
  r.path.any fun path => Text.hasInfix fragment.toList path.toList

end Region

end Grapnel
