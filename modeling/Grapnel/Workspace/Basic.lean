import Grapnel.FileTree.Basic
import Grapnel.Workspace.Fault

namespace Grapnel

/-- A workspace by the canonical names of its root. -/
structure Workspace where
  root : List String
  disk : Disk
deriving Inhabited

/-- Work on a file tree that may be refused; what was done before the refusal stays. -/
abbrev FileWork := ExceptT WorkspaceFault (StateM Node)

namespace Workspace

/-- Applies the steps of a path text to names, without looking at the tree. -/
def applySteps (names : List String) : List Path.Step → List String
  | [] => names
  | .root :: steps => applySteps [] steps
  | .up :: steps => applySteps names.dropLast steps
  | .stay :: steps => applySteps names steps
  | .name s :: steps => applySteps (names ++ [s]) steps

/-- The canonical form of the longest part that exists, with the rest of the names after it. -/
def canonicalPart (files : Node) (names : List String) (rest : List String) :
    Option (List String) :=
  match FileTree.canonicalize files names with
  | .ok base => some (base ++ rest)
  | .error _ =>
    if h : names = [] then none
    else canonicalPart files names.dropLast (names.getLast h :: rest)
termination_by names.length
decreasing_by
  have := List.length_pos_iff.mpr h
  simp only [List.length_dropLast]; omega

/-- Where a guest path leads, by names from the root of the tree. -/
def resolve (w : Workspace) (files : Node) (path : String) :
    Except WorkspaceFault (List String) :=
  match canonicalPart files (applySteps w.root (Path.steps path)) [] with
  | some names => if w.root.isPrefixOf names then .ok names else .error (.escape path)
  | none => .error (.escape path)

/-- The path below the root, or the whole path of what is not below it. -/
def relative (w : Workspace) (names : List String) : String :=
  if w.root.isPrefixOf names then "/".intercalate (names.drop w.root.length)
  else Path.absolute names

def refuse {α : Type} (names : List String) (fault : IoFault) : FileWork α :=
  throw (.io (Path.absolute names) fault)

/-- Takes over a tree also where a change of it was refused half way. -/
def takeOver {α : Type} (names : List String) : Except IoFault α × Node → FileWork Unit
  | (.ok _, files) => set files
  | (.error fault, files) => do
    set files
    refuse names fault

/-- Takes over a changed tree, or the refusal. -/
def commit (names : List String) : Except IoFault Node → FileWork Unit
  | .ok files => set files
  | .error fault => refuse names fault

/-- Makes a directory and those above it; what could be made stays. -/
def makeDirectories (names : List String) : FileWork Unit := do
  takeOver names (FileTree.makeDirectories (← get) names)

/-- Opens a workspace on a disk that takes everything; its root is made if it is missing. -/
def openAt (names : List String) : FileWork Workspace := do
  makeDirectories names
  match FileTree.canonicalize (← get) names with
  | .ok root => return ⟨root, .sound⟩
  | .error fault => refuse names fault

variable (w : Workspace)

def read (path : String) : FileWork (List UInt8) := do
  let files ← get
  let names ← w.resolve files path
  if FileTree.isFile files names then
    match FileTree.read files names with
    | .ok content => return content
    | .error fault => refuse names fault
  else throw (.notFound path)

/-- Resolves a path and makes the directories above it. -/
def resolveCreatable (path : String) : FileWork (List String) := do
  let names ← w.resolve (← get) path
  if names ≠ [] then makeDirectories names.dropLast
  return names

def write (path : String) (content : List UInt8) : FileWork Unit := do
  let names ← w.resolveCreatable path
  takeOver names (FileTree.write w.disk (← get) names content)

def append (path : String) (content : List UInt8) : FileWork Unit := do
  let names ← w.resolveCreatable path
  takeOver names (FileTree.append w.disk (← get) names content)

def isFile (files : Node) (path : String) : Bool :=
  match w.resolve files path with
  | .ok names => FileTree.isFile files names
  | .error _ => false

def isFolder (files : Node) (path : String) : Bool :=
  match w.resolve files path with
  | .ok names => FileTree.isDirectory files names
  | .error _ => false

def makeFolder (path : String) : FileWork Unit := do
  makeDirectories (← w.resolve (← get) path)

/-- The paths of a folder's entries, below the root and in byte order. -/
def list (path : String) : FileWork (List String) := do
  let files ← get
  let names ← w.resolve files path
  if FileTree.isDirectory files names then
    match FileTree.list files names with
    | .ok entries =>
      return (entries.map fun name => w.relative (names ++ [name])).mergeSort fun a b => a ≤ b
    | .error fault => refuse names fault
  else throw (.notFound path)

def deleteFile (path : String) : FileWork Unit := do
  let files ← get
  let names ← w.resolve files path
  if FileTree.isFile files names then commit names (FileTree.removeFile files names)
  else throw (.notFound path)

/-- Deletes a folder with everything in it, but never the root. -/
def deleteFolder (path : String) : FileWork Unit := do
  let files ← get
  let names ← w.resolve files path
  if names = w.root then throw (.escape path)
  else if FileTree.isDirectory files names then
    commit names (FileTree.removeDirectory files names)
  else throw (.notFound path)

end Workspace

end Grapnel
