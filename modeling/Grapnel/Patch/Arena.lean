import Grapnel.Memory.Driver
import Grapnel.Patch.CodeSpace

namespace Grapnel

structure ArenaPage where
  access : Access
  /-- Shared with a file that is open for reading only, so that it can never be written. -/
  isSealed : Bool
deriving DecidableEq, Inhabited

structure Arena where
  base : Address
  pages : List (Option ArenaPage)
  content : List UInt8
deriving Inhabited

namespace Arena

/-- An arena whose bytes depend on their offset. -/
def create (base : Address) (pages : List (Option ArenaPage)) (fill : Nat → UInt8) : Arena :=
  ⟨base, pages, (List.range (pages.length * Page.size)).map fill⟩

/-- The page with the byte at some place of the address space. -/
def page? (w : Arena) (place : Nat) : Option ArenaPage :=
  if w.base.toNat ≤ place then (w.pages[(place - w.base.toNat) / Page.size]?).join else none

/-- How many bytes of a range come before the first that is not in a suitable page. -/
def reach (w : Arena) (suits : ArenaPage → Bool) (a : Address) (length : Nat) : Nat :=
  ((List.range length).takeWhile fun i => (w.page? (a.toNat + i)).any suits).length

/-- The bytes of a range; beyond the content they are zero. -/
def bytes (w : Arena) (a : Address) (length : Nat) : List UInt8 :=
  let present := (w.content.drop (a.toNat - w.base.toNat)).take length
  present ++ List.replicate (length - present.length) 0

def setBytes (w : Arena) (a : Address) (bytes : List UInt8) : Arena :=
  let i := a.toNat - w.base.toNat
  { w with content := w.content.take i ++ bytes ++ w.content.drop (i + bytes.length) }

/-- Gives some pages an access, from the first on, up to one that refuses it. -/
def protectPages (access : Access) :
    Nat → List (Option ArenaPage) → Except IoFault Unit × List (Option ArenaPage)
  | 0, pages => (.ok (), pages)
  | _ + 1, [] => (.error (.system .outOfMemory), [])
  | _ + 1, none :: pages => (.error (.system .outOfMemory), none :: pages)
  | count + 1, some page :: pages =>
    if page.isSealed && access.contains .write then
      (.error (.system .noAccess), some page :: pages)
    else
      let (result, pages) := protectPages access count pages
      (result, some { page with access } :: pages)

def protect (start stop : Address) (access : Access) (w : Arena) : Except IoFault Unit × Arena :=
  if w.base ≤ start then
    let first := (start.toNat - w.base.toNat) / Page.size
    let count := (stop.toNat - start.toNat) / Page.size
    let (result, pages) := protectPages access count (w.pages.drop first)
    (result, { w with pages := w.pages.take first ++ pages })
  else (.error (.system .outOfMemory), w)

/-- Joins a page to the regions behind it, or starts one. -/
def region (start : Nat) (page : ArenaPage) : List Region → List Region
  | r :: rs =>
    if !page.isSealed && !r.shared && r.access == page.access
        && r.start.toNat == start + Page.size then
      { r with start := .ofNat start } :: rs
    else ⟨.ofNat start, .ofNat (start + Page.size), page.access, page.isSealed, 0, none⟩ :: r :: rs
  | [] => [⟨.ofNat start, .ofNat (start + Page.size), page.access, page.isSealed, 0, none⟩]

def regionsFrom : Nat → List (Option ArenaPage) → List Region
  | _, [] => []
  | start, none :: pages => regionsFrom (start + Page.size) pages
  | start, some page :: pages => region start page (regionsFrom (start + Page.size) pages)

def regions (w : Arena) : List Region := regionsFrom w.base.toNat w.pages

def space : CodeSpace Arena where
  read a length w := w.bytes a length
  write a bytes w := w.setBytes a bytes
  regions := regions
  protect := protect
  allocate w := (.ok (), w)

def isWritable (page : ArenaPage) : Bool := page.access.contains .write

/-- What to answer when only the first bytes were moved. -/
def short (a : Address) (expected moved : Nat) : MemoryFault :=
  if moved = 0 then .io (.system .badAddress) else .transfer a expected moved

def read (a : Address) (length : Nat) (w : Arena) : Except MemoryFault (List UInt8) × Arena :=
  let moved := w.reach (fun _ => true) a length
  (if moved = length then .ok (w.bytes a length) else .error (short a length moved), w)

theorem length_bytes (w : Arena) (a : Address) (length : Nat) : (w.bytes a length).length = length := by
  simp only [bytes, List.length_append, List.length_take, List.length_replicate]
  omega

theorem length_read {w : Arena} {a : Address} {length : Nat} {bytes : List UInt8}
    (h : (read a length w).1 = .ok bytes) : bytes.length = length := by
  unfold read at h
  dsimp only at h
  split at h
  · cases h
    exact length_bytes w a length
  · cases h

/-- The memory file writes all pages but sealed ones. Where it cannot write everything, the bytes
count that the kernel moves between processes, which respects the access of pages. -/
def write (a : Address) (bytes : List UInt8) (w : Arena) : Except MemoryFault Unit × Arena :=
  let forced := w.reach (fun page => !page.isSealed) a bytes.length
  let after := w.setBytes a (bytes.take forced)
  if forced = bytes.length then (.ok (), after)
  else (.error (short a bytes.length (w.reach isWritable a bytes.length)), after)

/-- The bytes of several ranges up to the first that is not mapped. -/
def gather (w : Arena) : List (Address × Nat) → Nat × List (List UInt8)
  | [] => (0, [])
  | (a, length) :: requests =>
    let moved := w.reach (fun _ => true) a length
    if moved = length then
      let (count, buffers) := w.gather requests
      (length + count, w.bytes a length :: buffers)
    else
      (moved, (w.bytes a moved ++ List.replicate (length - moved) 0)
        :: requests.map MemoryDriver.blank)

theorem lengths_gather (w : Arena) (requests : List (Address × Nat)) :
    (w.gather requests).2.map List.length = requests.map Prod.snd := by
  induction requests with
  | nil => rfl
  | cons request requests ih =>
    obtain ⟨a, length⟩ := request
    rw [gather]
    dsimp only
    split
    · exact List.cons_eq_cons.2 ⟨length_bytes w a length, ih⟩
    · refine List.cons_eq_cons.2 ⟨?_, MemoryDriver.lengths_blank requests⟩
      have hreach : w.reach (fun _ => true) a length ≤ length := by
        have hprefix := List.takeWhile_sublist
          (fun i => (w.page? (a.toNat + i)).any fun _ => true) (l := List.range length)
        have hle := hprefix.length_le
        rwa [List.length_range] at hle
      rw [List.length_append, length_bytes, List.length_replicate, Nat.add_sub_cancel' hreach]

/-- Writes several ranges up to the first byte that cannot be written. -/
def scatter : List (Address × List UInt8) → Arena → Nat × Arena
  | [], w => (0, w)
  | (a, bytes) :: requests, w =>
    let moved := w.reach isWritable a bytes.length
    let w := w.setBytes a (bytes.take moved)
    if moved = bytes.length then
      let (count, w) := scatter requests w
      (moved + count, w)
    else (moved, w)

def driver : MemoryDriver Unit Arena where
  processId _ := 0
  isWritable _ _ := true
  read _ := read
  write _ := write
  readVectored _ requests w :=
    let (moved, buffers) := w.gather requests
    (if moved = 0 && requests.any (·.2 ≠ 0) then .error (.io (.system .badAddress))
      else .ok (moved, buffers), w)
  writeVectored _ requests w :=
    let (moved, w) := scatter requests w
    (if moved = 0 && requests.any (!·.2.isEmpty) then .error (.io (.system .badAddress))
      else .ok moved, w)
  regions _ w := (.ok w.regions, w)
  length_read := length_read
  lengths_readVectored h := by
    dsimp only at h
    split at h
    · cases h
    · cases h
      exact lengths_gather _ _

/-- The runs of places at which two contents differ. -/
def runs : Nat → List UInt8 → List UInt8 → List (Nat × List UInt8)
  | i, a :: as, b :: bs =>
    let rest := runs (i + 1) as bs
    if a = b then rest
    else
      match rest with
      | (j, bytes) :: more => if j = i + 1 then (i, b :: bytes) :: more else (i, [b]) :: rest
      | [] => [(i, [b])]
  | _, _, _ => []

/-- What differs from an earlier state, by offset. -/
def changes (before after : Arena) : List (Nat × List UInt8) := runs 0 before.content after.content

end Arena

end Grapnel
