import Grapnel.Machine.Action

namespace Grapnel

open Guest

namespace ClockLibrary

/-- Seconds of a count of nanoseconds: whole seconds plus the rest of one. -/
def seconds (nanoseconds : Nat) : Double :=
  (Double.ofInt (nanoseconds / 10 ^ 9)).add
    ((Double.ofInt (nanoseconds % 10 ^ 9)).div (Double.ofInt (10 ^ 9)))

def perform (f : ClockFunction) (c : NativeCall) : Action (List Value) := do
  let now := (← get).host.clock
  match f with
  | .clock => return [.float (seconds now)]
  | .date => return [.string .empty]
  | .difftime => return [.float ((← c.double 1).sub (← c.double 2))]
  | .time => return [.ofNat (now / 10 ^ 9)]

end ClockLibrary

end Grapnel
