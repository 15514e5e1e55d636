import Grapnel.Memory.Driver

namespace Grapnel

structure Segment where
  region : Region
  content : List UInt8
  /-- Left out when regions are enumerated. -/
  hidden : Bool
deriving Inhabited

namespace Segment

/-- Where a range starts in the content, if the segment holds all of it. -/
def place? (s : Segment) (a : Address) (size : Nat) : Option Nat :=
  if s.region.start ≤ a ∧ a.toNat - s.region.start.toNat + size ≤ s.content.length then
    some (a.toNat - s.region.start.toNat)
  else none

end Segment

/-- How segments answer transfers of several ranges. -/
inductive Vectored where
  | each
  /-- Claims to have moved so many bytes, and moves none. -/
  | claim (count : Nat)
  | refuse
deriving Inhabited

inductive SegmentCall where
  | read (a : Address) (size : Nat) (granted : Bool)
  | write (a : Address) (size : Nat) (granted : Bool)
  | regions
deriving Inhabited

/-- The memory behind a driver that can be told to refuse long reads, writes or enumerations, and that
keeps a log of its calls. -/
structure Segments where
  segments : List Segment
  maxRead : Option Nat
  writable : Bool
  vectored : Vectored
  regionsFail : Bool
  calls : List SegmentCall
deriving Inhabited

namespace Segments

def log (s : Segments) (c : SegmentCall) : Segments := { s with calls := s.calls ++ [c] }

/-- The content of a range, from the first segment that holds it. -/
def content? (s : Segments) (a : Address) (size : Nat) : Option (List UInt8) :=
  s.segments.findSome? fun seg =>
    (seg.place? a size).map fun i => (seg.content.drop i).take size

def read (a : Address) (size : Nat) (s : Segments) :
    Except MemoryFault (List UInt8) × Segments :=
  match if s.maxRead.all (size ≤ ·) then s.content? a size else none with
  | some bytes => (.ok bytes, s.log (.read a size true))
  | none => (.error (.transfer a size 0), s.log (.read a size false))

theorem length_read {a : Address} {size : Nat} {s : Segments} {bytes : List UInt8}
    (h : (read a size s).1 = .ok bytes) : bytes.length = size := by
  have hcontent : s.content? a size = some bytes := by
    unfold read at h
    split at h
    · next found hfound =>
      cases h
      split at hfound
      · exact hfound
      · cases hfound
    · cases h
  obtain ⟨seg, _, hseg⟩ := List.exists_of_findSome?_eq_some hcontent
  obtain ⟨i, hplace, rfl⟩ := Option.map_eq_some_iff.1 hseg
  rw [Segment.place?] at hplace
  split at hplace
  · next hin =>
    cases hplace
    rw [List.length_take, List.length_drop]
    omega
  · cases hplace

def overwrite (content : List UInt8) (i : Nat) (bytes : List UInt8) : List UInt8 :=
  content.take i ++ bytes ++ content.drop (i + bytes.length)

/-- The segments with a range replaced in the first one that holds it. -/
def written? (a : Address) (bytes : List UInt8) : List Segment → Option (List Segment)
  | [] => none
  | seg :: rest =>
    match seg.place? a bytes.length with
    | some i => some ({ seg with content := overwrite seg.content i bytes } :: rest)
    | none => (written? a bytes rest).map (seg :: ·)

def write (a : Address) (bytes : List UInt8) (s : Segments) :
    Except MemoryFault Unit × Segments :=
  let refused := s.log (.write a bytes.length false)
  if s.writable then
    match written? a bytes s.segments with
    | some segments => (.ok (), { s with segments }.log (.write a bytes.length true))
    | none => (.error (.transfer a bytes.length 0), refused)
  else (.error .notSupported, refused)

def regions (s : Segments) : Except MemoryFault (List Region) × Segments :=
  let s := s.log .regions
  if s.regionsFail then (.error (.io .entityNotFound), s)
  else (.ok ((s.segments.filter fun seg => !seg.hidden).map (·.region)), s)

def readVectored (requests : List (Address × Nat)) (s : Segments) :
    Except MemoryFault (Nat × List (List UInt8)) × Segments :=
  match s.vectored with
  | .each =>
    let (moved, s) := MemoryDriver.readEach read requests s
    (.ok moved, s)
  | .claim count => (.ok (count, requests.map MemoryDriver.blank), s)
  | .refuse => (.error .notSupported, s)

theorem lengths_readVectored {requests : List (Address × Nat)} {s : Segments} {moved : Nat}
    {buffers : List (List UInt8)} (h : (readVectored requests s).1 = .ok (moved, buffers)) :
    buffers.map List.length = requests.map Prod.snd := by
  unfold readVectored at h
  split at h
  · have hlengths : (MemoryDriver.readEach read requests s).1.2.map List.length = _ :=
      MemoryDriver.lengths_readEach (fun hread => length_read hread) requests s
    rwa [Except.ok.inj h] at hlengths
  · cases h
    exact MemoryDriver.lengths_blank requests
  · cases h

def writeVectored (requests : List (Address × List UInt8)) (s : Segments) :
    Except MemoryFault Nat × Segments :=
  match s.vectored with
  | .each =>
    let (moved, s) := MemoryDriver.writeEach write requests s
    (.ok moved, s)
  | .claim count => (.ok count, s)
  | .refuse => (.error .notSupported, s)

/-- A handle is the number of the process; the segments are the driver's world. -/
def driver : MemoryDriver Nat Segments where
  processId process := process
  isWritable _ s := s.writable
  read _ := read
  write _ := write
  readVectored _ := readVectored
  writeVectored _ := writeVectored
  regions _ := regions
  length_read := length_read
  lengths_readVectored := lengths_readVectored

end Segments

end Grapnel
