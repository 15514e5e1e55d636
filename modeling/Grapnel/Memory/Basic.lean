import Grapnel.Memory.Driver
import Grapnel.Memory.Scan
import Grapnel.Number.LittleEndian
import Grapnel.Text.Utf8

namespace Grapnel

/-- The memory of the process that is attached, if one is, in the world of its driver. -/
structure Memory (D W : Type) where
  handle : Option D
  /-- Whether the last handle was dropped because it had become useless. -/
  invalidated : Bool
  generation : Nat
  /-- The regions that the present handle enumerated last. -/
  known : Option (List Region)
  scanChunk : Nat
  stringChunk : { n : Nat // 0 < n }
  world : W

/-- Work on memory. It may be refused or stop at an overflow; what was done until then stays. -/
abbrev MemoryWork (D W : Type) := ExceptT Stop (StateM (Memory D W))

namespace Memory

variable {D W : Type}

def defaultScanChunk : Nat := 0x10000

def defaultStringChunk : Nat := 256

def open? (scanChunk stringChunk : Option Nat) (world : W) : Memory D W where
  handle := none
  invalidated := false
  generation := 0
  known := none
  scanChunk := max (scanChunk.getD defaultScanChunk) 1
  stringChunk := ⟨max (stringChunk.getD defaultStringChunk) 1, by omega⟩
  world := world

/-- The memory with the standard sizes of windows and of pieces of texts. -/
def create (world : W) : Memory D W := open? none none world

def attach (m : Memory D W) (handle : D) : Memory D W :=
  { m with
    handle := some handle, invalidated := false, generation := m.generation + 1, known := none }

def detach (m : Memory D W) : Option D × Memory D W :=
  (m.handle, { m with handle := none, known := none })

/-- Drops a handle that has become useless. -/
def invalidate (m : Memory D W) : Memory D W :=
  match m.handle with
  | some _ => { m with handle := none, known := none, invalidated := true }
  | none => { m with known := none }

def isAttached (m : Memory D W) : Bool := m.handle.isSome

/-- Whether the regions of the present handle are known. -/
def isEnumerated (m : Memory D W) : Bool := m.handle.isSome && m.known.isSome

def handle? (m : Memory D W) : Except MemoryFault D :=
  match m.handle with
  | some d => .ok d
  | none => .error (if m.invalidated then .handleInvalidated else .notAttached)

end Memory

namespace MemoryWork

variable {D W : Type}

def refuse {α : Type} (fault : MemoryFault) : MemoryWork D W α := throw (.refused fault)

def handle : MemoryWork D W D := do
  match (← get).handle? with
  | .ok d => return d
  | .error fault => refuse fault

def onWorld {α : Type} (f : W → α × W) : MemoryWork D W α :=
  modifyGet fun m =>
    let (a, world) := f m.world
    (a, { m with world })

/-- Lets a driver work in the world; its refusal ends the work. -/
def perform {α : Type} (f : W → Except MemoryFault α × W) : MemoryWork D W α := do
  match ← onWorld f with
  | .ok a => return a
  | .error fault => refuse fault

def checked {α : Type} : Except Trap α → MemoryWork D W α
  | .ok a => return a
  | .error trap => throw (.trapped trap)

variable (drv : MemoryDriver D W)

/-- The regions: those that are known, unless they are to be enumerated again. A refusal leaves what
is known as it is. -/
def regions (refresh : Bool) : MemoryWork D W (List Region) := do
  let d ← handle
  match (← get).known, refresh with
  | some regions, false => return regions
  | _, _ =>
    let regions ← perform (drv.regions d)
    modify fun m => { m with known := some regions }
    return regions

/-- The first region that holds an address. -/
def findRegion (a : Address) : MemoryWork D W (Option Region) :=
  return (← regions drv false).find? (·.contains a)

def lower (a b : Address) : Address := if b < a then b else a

/-- The lowest start of a region whose path has a fragment. -/
def moduleBase (fragment : String) : MemoryWork D W (Option Address) := do
  match (← regions drv false).filter (·.pathContains fragment) with
  | [] => return none
  | r :: rs => return some ((rs.map (·.start)).foldl lower r.start)

def read (a : Address) (size : Nat) : MemoryWork D W (List UInt8) := do
  let d ← handle
  perform (drv.read d a size)

def readBytes (a : Address) (size : Nat) : MemoryWork D W (List UInt8) := do
  checked (allocate size)
  read drv a size

def write (a : Address) (content : List UInt8) : MemoryWork D W Unit := do
  let d ← handle
  perform (drv.write d a content)

def readNumber (a : Address) (bytes : Nat) : MemoryWork D W Nat :=
  return LittleEndian.ofBytes (← read drv a bytes)

def writeNumber (a : Address) (bytes n : Nat) : MemoryWork D W Unit :=
  write drv a (LittleEndian.bytes bytes n)

def readAddress (a : Address) : MemoryWork D W Address :=
  return .ofNat (← readNumber drv a 8)

/-- Reads that answer nothing where they are refused. -/
def tryRead (d : D) (a : Address) (size : Nat) (w : W) : Option (List UInt8) × W :=
  let (result, w) := drv.read d a size w
  (result.toOption, w)

/-- The bytes before the first NUL, piece by piece. A piece that is refused ends them, but not the
first one. -/
def stringFrom (d : D) (chunk : { n : Nat // 0 < n }) (start : Address) (isFirst : Bool)
    (a : Address) (left : Nat) (w : W) : Except Stop (List UInt8) × W :=
  if _h : left = 0 then (.ok [], w)
  else
    have := chunk.property
    let size := min chunk.val left
    match tryRead drv d a size w with
    | (none, w) => (if isFirst then .error (.refused (.notFound start)) else .ok [], w)
    | (some content, w) =>
      if content.contains 0 then (.ok (content.takeWhile (· ≠ 0)), w)
      else
        match a.add size with
        | .error trap => (.error (.trapped trap), w)
        | .ok next =>
          let (rest, w) := stringFrom d chunk start false next (left - size) w
          (rest.map (content ++ ·), w)
termination_by left
decreasing_by omega

/-- A text of at most so many bytes that ends before the first NUL; damage is replaced. -/
def readString (a : Address) (maxLength : Nat) : MemoryWork D W String := do
  let d ← handle
  let chunk := (← get).stringChunk
  match ← onWorld (stringFrom drv d chunk a true a maxLength) with
  | .ok content => return Utf8.lossy content
  | .error stop => throw stop

/-- Follows pointers: each offset but the last is added and the sum read; null ends the walk. -/
def followFrom (index : Nat) (a : Address) : List Int64 → MemoryWork D W Address
  | [] => return a
  | [last] => return a.displace last
  | offset :: offsets => do
    let slot := a.displace offset
    match ← tryCatch (some <$> readAddress drv slot) fun stop =>
        match stop with
        | .refused _ => return none
        | .trapped trap => throw (.trapped trap) with
    | some next => do
      if next.isNull then refuse (.nullDereference slot index)
      else followFrom (index + 1) next offsets
    | none => refuse (.nullDereference slot index)

def resolveChain (base : Address) (offsets : List Int64) : MemoryWork D W Address := do
  discard handle
  followFrom drv 0 base offsets

/-- Carries out one transfer of a batch. -/
def one {α : Type} (f : W → Except MemoryFault α × W) : MemoryWork D W (Except MemoryFault α) :=
  onWorld f

/-- The bytes of several ranges together, which have to fit into a word. -/
def total (requests : List (Address × Nat)) : Except Trap Nat :=
  requests.foldlM (fun n request => addChecked n request.2) 0

/-- Makes room for the buffers of several ranges. -/
def allocateAll (requests : List (Address × Nat)) : Except Trap Unit :=
  requests.forM fun request => allocate request.2

/-- Reads several ranges at once, or one by one where that moves too little. -/
def batchRead (requests : List (Address × Nat)) :
    MemoryWork D W (List (Except MemoryFault (List UInt8))) := do
  let d ← handle
  let expected ← checked (total requests)
  checked (allocateAll requests)
  match ← onWorld (drv.readVectored d requests) with
  | .ok (moved, buffers) =>
    if moved = expected then return buffers.map .ok
    else requests.mapM fun (a, size) => one (drv.read d a size)
  | .error _ => requests.mapM fun (a, size) => one (drv.read d a size)

/-- Writes several ranges at once, or one by one where that moves too little. -/
def batchWrite (requests : List (Address × List UInt8)) :
    MemoryWork D W (List (Except MemoryFault Unit)) := do
  let d ← handle
  let expected ← checked (total (requests.map fun (a, content) => (a, content.length)))
  match ← onWorld (drv.writeVectored d requests) with
  | .ok moved =>
    if moved = expected then return requests.map fun _ => .ok ()
    else requests.mapM fun (a, content) => one (drv.write d a content)
  | .error _ => requests.mapM fun (a, content) => one (drv.write d a content)

def scan (p : BytePattern) (start : Address) (length : Nat) (firstOnly : Bool) :
    MemoryWork D W (List Address) := do
  let d ← handle
  let chunk := (← get).scanChunk
  checked (← onWorld (Scan.scanFrom (tryRead drv d) p start length chunk firstOnly 0))

def findPattern (p : BytePattern) (start : Address) (length : Nat) :
    MemoryWork D W (Option Address) :=
  return (← scan drv p start length true).head?

def findAllPatterns (p : BytePattern) (start : Address) (length : Nat) :
    MemoryWork D W (List Address) := scan drv p start length false

end MemoryWork

end Grapnel
