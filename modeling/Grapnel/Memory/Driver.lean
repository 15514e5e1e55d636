import Grapnel.Memory.Fault
import Grapnel.Memory.Region

namespace Grapnel

/-- Reads go into buffers of the caller, which keep their lengths. -/
structure MemoryDriver (D W : Type) where
  processId : D → Nat
  isWritable : D → W → Bool
  read : D → Address → Nat → W → Except MemoryFault (List UInt8) × W
  write : D → Address → List UInt8 → W → Except MemoryFault Unit × W
  /-- Reads several ranges; answers how many bytes were moved, and the buffers. -/
  readVectored : D → List (Address × Nat) → W → Except MemoryFault (Nat × List (List UInt8)) × W
  writeVectored : D → List (Address × List UInt8) → W → Except MemoryFault Nat × W
  regions : D → W → Except MemoryFault (List Region) × W
  length_read : ∀ {d a size w bytes}, (read d a size w).1 = .ok bytes → bytes.length = size
  lengths_readVectored : ∀ {d requests w moved buffers},
    (readVectored d requests w).1 = .ok (moved, buffers) →
      buffers.map List.length = requests.map Prod.snd

namespace MemoryDriver

variable {W : Type}

/-- A buffer that nothing was moved into. -/
def blank (request : Address × Nat) : List UInt8 := List.replicate request.2 0

/-- Reads one range after the other, up to the first that is refused. -/
def readEach (read : Address → Nat → W → Except MemoryFault (List UInt8) × W) :
    List (Address × Nat) → W → (Nat × List (List UInt8)) × W
  | [], w => ((0, []), w)
  | (a, size) :: rest, w =>
    match read a size w with
    | (.ok bytes, w) =>
      let ((count, buffers), w) := readEach read rest w
      ((size + count, bytes :: buffers), w)
    | (.error _, w) => ((0, blank (a, size) :: rest.map blank), w)

theorem lengths_blank (requests : List (Address × Nat)) :
    (requests.map blank).map List.length = requests.map Prod.snd := by
  rw [List.map_map]
  apply List.map_congr_left
  intro request _
  exact List.length_replicate

theorem lengths_readEach {read : Address → Nat → W → Except MemoryFault (List UInt8) × W}
    (h : ∀ {a size w bytes}, (read a size w).1 = .ok bytes → bytes.length = size)
    (requests : List (Address × Nat)) (w : W) :
    (readEach read requests w).1.2.map List.length = requests.map Prod.snd := by
  induction requests generalizing w with
  | nil => rfl
  | cons request requests ih =>
    obtain ⟨a, size⟩ := request
    rw [readEach]
    cases hr : read a size w with
    | mk result w' =>
      cases result with
      | ok bytes =>
        have hlength : bytes.length = size := h (congrArg Prod.fst hr)
        exact List.cons_eq_cons.2 ⟨hlength, ih w'⟩
      | error fault => exact lengths_blank ((a, size) :: requests)

/-- Writes one range after the other, up to the first that is refused. -/
def writeEach (write : Address → List UInt8 → W → Except MemoryFault Unit × W) :
    List (Address × List UInt8) → W → Nat × W
  | [], w => (0, w)
  | (a, bytes) :: rest, w =>
    match write a bytes w with
    | (.ok _, w) =>
      let (count, w) := writeEach write rest w
      (bytes.length + count, w)
    | (.error _, w) => (0, w)

end MemoryDriver

end Grapnel
