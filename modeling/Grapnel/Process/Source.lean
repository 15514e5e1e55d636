import Grapnel.Memory.Region
import Grapnel.Process.Basic
import Grapnel.Process.Fault

namespace Grapnel

/-- A source of processes and of their regions in a world `W`. -/
structure ProcessSource (W : Type) where
  processes : W → Except SourceFault (List ProcessInfo) × W
  regions : Nat → W → Except SourceFault (List Region) × W

/-- Processes, the regions of some of them, and a record of whose regions were asked for. -/
structure ListedProcesses where
  processes : List ProcessInfo
  regions : List (Nat × List Region)
  fails : Bool
  asked : List Nat
deriving Inhabited

namespace ListedProcesses

def source : ProcessSource ListedProcesses where
  processes s := (if s.fails then .error (.io .permissionDenied) else .ok s.processes, s)
  regions pid s :=
    (match s.regions.lookup pid with
      | some rs => .ok rs
      | none => .error (.io .permissionDenied),
      { s with asked := s.asked ++ [pid] })

end ListedProcesses

end Grapnel
