import Grapnel.Injector.Basic
import Grapnel.Memory.Segments

namespace Grapnel

/-- The whole of a world after a call in a part of it. -/
def MemoryDriver.back {V W α : Type} (set : V → W → W) (r : α × V) (w : W) : α × W :=
  (r.1, set r.2 w)

/-- Lets a driver work in a part of a world. -/
def MemoryDriver.inPart {D V W : Type} (drv : MemoryDriver D V) (get : W → V) (set : V → W → W) :
    MemoryDriver D W where
  processId := drv.processId
  isWritable d w := drv.isWritable d (get w)
  read d a size w := back set (drv.read d a size (get w)) w
  write d a bytes w := back set (drv.write d a bytes (get w)) w
  readVectored d requests w := back set (drv.readVectored d requests (get w)) w
  writeVectored d requests w := back set (drv.writeVectored d requests (get w)) w
  regions d w := back set (drv.regions d (get w)) w
  length_read := drv.length_read
  lengths_readVectored := drv.lengths_readVectored

structure TargetWorld where
  listed : ListedProcesses
  /-- Why the memory of a process cannot be opened. -/
  openFault : Option (Nat → MemoryFault)
  segments : Segments
deriving Inhabited

namespace TargetWorld

def source : ProcessSource TargetWorld where
  processes w :=
    let (r, listed) := ListedProcesses.source.processes w.listed
    (r, { w with listed })
  regions pid w :=
    let (r, listed) := ListedProcesses.source.regions pid w.listed
    (r, { w with listed })

def tools : InjectorTools Nat TargetWorld where
  source := source
  openMemory pid w :=
    (match w.openFault with
      | some fault => .error (fault pid)
      | none => .ok pid, w)
  driver := Segments.driver.inPart (·.segments) fun segments w => { w with segments }

/-- The world after its log of calls was cleared. -/
def clearCalls (w : TargetWorld) : TargetWorld :=
  { w with segments := { w.segments with calls := [] } }

end TargetWorld

end Grapnel
