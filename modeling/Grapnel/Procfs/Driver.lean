import Grapnel.Memory.Driver
import Grapnel.Procfs.Source

namespace Grapnel

inductive OpenFile where
  | linked (names : List String)
  /-- Its name is gone. -/
  | unlinked (content : List UInt8)
  | directory
deriving Inhabited

/-- A file tree with the files that are open in it, counted in the order of their opening. -/
structure OpenFiles where
  tree : Node
  opened : List OpenFile
deriving Inhabited

namespace OpenFiles

def openFile (w : OpenFiles) (f : OpenFile) : Nat × OpenFiles :=
  (w.opened.length, { w with opened := w.opened ++ [f] })

/-- The content of an open file, unless it is a directory. -/
def content? (w : OpenFiles) (number : Nat) : Option (List UInt8) :=
  match w.opened[number]? with
  | some (.linked names) =>
    match w.tree.at? names with
    | some (.file content) => some content
    | _ => none
  | some (.unlinked content) => some content
  | _ => none

def setContent (w : OpenFiles) (number : Nat) (content : List UInt8) : OpenFiles :=
  match w.opened[number]? with
  | some (.linked names) => { w with tree := w.tree.set names (some (.file content)) }
  | some (.unlinked _) => { w with opened := w.opened.set number (.unlinked content) }
  | _ => w

/-- What is left of an open file when everything at and below a path is removed. -/
def unlink (w : OpenFiles) (names : List String) : OpenFile → OpenFile
  | .linked file =>
    if names.isPrefixOf file then
      match w.tree.at? file with
      | some (.file content) => .unlinked content
      | _ => .linked file
    else .linked file
  | f => f

/-- Removes a file or a whole directory; open files stay usable. -/
def remove (w : OpenFiles) (names : List String) : OpenFiles :=
  { tree := w.tree.set names none, opened := w.opened.map (w.unlink names) }

end OpenFiles

/-- The memory of a process, opened through its directory. -/
structure ProcfsHandle where
  pid : Nat
  file : Nat
  writable : Bool
  maps : List String
deriving Inhabited

namespace ProcfsHandle

/-- Offsets from here on are beyond any file. -/
def maxOffset : Nat := 2 ^ 44

/-- Opens the memory file of a process: for reading and writing or, failing that, for reading. -/
def attach (root : List String) (pid : Nat) (w : OpenFiles) :
    Except MemoryFault ProcfsHandle × OpenFiles :=
  let directory := root ++ [toString pid]
  let maps := directory ++ ["maps"]
  match FileTree.walk w.tree (directory ++ ["mem"]) with
  | .ok ⟨names, some (.file _)⟩ =>
    let (file, w) := w.openFile (.linked names)
    (.ok ⟨pid, file, true, maps⟩, w)
  | .ok ⟨_, some (.directory _)⟩ =>
    let (file, w) := w.openFile .directory
    (.ok ⟨pid, file, false, maps⟩, w)
  | _ => (.error (.accessDenied pid), w)

/-- What the kernel answers to a transfer with a process that does not exist. -/
def noProcess : MemoryFault := .io (.system .noProcess)

def read (h : ProcfsHandle) (a : Address) (size : Nat) (w : OpenFiles) :
    Except MemoryFault (List UInt8) × OpenFiles :=
  if size = 0 then (.ok [], w)
  else
    match w.content? h.file with
    | some content =>
      let bytes := (content.drop a.toNat).take size
      (if bytes.length = size then .ok bytes else .error noProcess, w)
    | none => (.error noProcess, w)

theorem length_read {h : ProcfsHandle} {a : Address} {size : Nat} {w : OpenFiles}
    {bytes : List UInt8} (hr : (h.read a size w).1 = .ok bytes) : bytes.length = size := by
  unfold read at hr
  split at hr
  · next hzero =>
    cases hr
    exact hzero.symm
  · split at hr
    · dsimp only at hr
      split at hr
      · next hlength =>
        cases hr
        exact hlength
      · cases hr
    · cases hr

/-- A content with bytes written at an offset; a gap is filled with zeros. -/
def patched (content : List UInt8) (offset : Nat) (bytes : List UInt8) : List UInt8 :=
  content.take offset ++ List.replicate (offset - content.length) 0 ++ bytes
    ++ content.drop (offset + bytes.length)

def write (h : ProcfsHandle) (a : Address) (bytes : List UInt8) (w : OpenFiles) :
    Except MemoryFault Unit × OpenFiles :=
  if bytes.isEmpty then (.ok (), w)
  else if h.writable && a.toNat + bytes.length ≤ maxOffset then
    match w.content? h.file with
    | some content => (.ok (), w.setContent h.file (patched content a.toNat bytes))
    | none => (.error noProcess, w)
  else (.error noProcess, w)

def regions (h : ProcfsHandle) (w : OpenFiles) : Except MemoryFault (List Region) :=
  match FileTree.readText w.tree h.maps with
  | .error fault => .error (.io fault)
  | .ok maps =>
    match Maps.regions maps with
    | .ok rs => .ok rs
    | .error fault => .error fault.toMemoryFault

/-- Transfers of several ranges leave the memory file aside; without a byte to move they succeed. -/
def driver : MemoryDriver ProcfsHandle OpenFiles where
  processId h := h.pid
  isWritable h _ := h.writable
  read := read
  write := write
  readVectored _ requests w :=
    (if requests.all (·.2 = 0) then .ok (0, requests.map MemoryDriver.blank) else .error noProcess, w)
  writeVectored _ requests w :=
    (if requests.all (·.2.isEmpty) then .ok 0 else .error noProcess, w)
  regions h w := (h.regions w, w)
  length_read := length_read
  lengths_readVectored h := by
    split at h
    · cases h
      exact MemoryDriver.lengths_blank _
    · cases h

end ProcfsHandle

end Grapnel
