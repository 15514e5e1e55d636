import Grapnel.FileTree.Fault

namespace Grapnel

/-- What a name in a directory denotes. -/
inductive Node where
  | file (content : List UInt8)
  | directory (entries : List (String × Node))
  | link (target : String)
  | socket (listening : Bool)
deriving Inhabited

namespace Node

def isDirectory : Node → Bool
  | .directory _ => true
  | _ => false

def isFile : Node → Bool
  | .file _ => true
  | _ => false

def child? (name : String) : Node → Option Node
  | .directory entries => entries.lookup name
  | _ => none

/-- The node at a path, without following links. -/
def at? : List String → Node → Option Node
  | [], n => some n
  | name :: rest, n => (n.child? name).bind (at? rest)

/-- Replaces or adds the entry of that name. -/
def putEntry (name : String) (n : Node) : List (String × Node) → List (String × Node)
  | [] => [(name, n)]
  | (other, m) :: rest =>
    if other = name then (name, n) :: rest else (other, m) :: putEntry name n rest

/-- Replaces, adds or, with `none`, removes what has that name. -/
def setEntry (name : String) (value : Option Node) (entries : List (String × Node)) :
    List (String × Node) :=
  match value with
  | some n => putEntry name n entries
  | none => entries.filter fun e => e.1 ≠ name

/-- Replaces, adds or removes the node at a path whose parent is a directory. -/
def set : List String → Option Node → Node → Node
  | [], value, n => value.getD n
  | name :: rest, value, .directory entries =>
    match rest with
    | [] => .directory (setEntry name value entries)
    | _ :: _ =>
      match entries.lookup name with
      | some child => .directory (setEntry name (some (child.set rest value)) entries)
      | none => .directory entries
  | _ :: _, _, n => n

end Node

namespace Path

inductive Step where
  | root
  | up
  | stay
  | name (s : String)
deriving DecidableEq, Inhabited

/-- One step of a path that is given by its names. -/
def stepOf (name : String) : Step := if name = ".." then .up else .name name

/-- The names in a path text; empty ones and `.` lead nowhere. -/
def names (path : String) : List String :=
  (path.splitOn "/").filter fun s => s ≠ "" && s ≠ "."

def steps (path : String) : List Step :=
  let steps := (names path).map stepOf
  if path.startsWith "/" then .root :: steps else steps

/-- The steps of what a link contains; if it ends like a directory it has to lead to one. -/
def linkSteps (target : String) : List Step :=
  let last := (target.splitOn "/").getLast?
  if last = some "" ∨ last = some "." then steps target ++ [.stay] else steps target

def absolute (names : List String) : String :=
  if names.isEmpty then "/" else "/" ++ "/".intercalate names

end Path

/-- What a path leads to: its canonical names and the node there, or none if only the last name is
missing from a directory. -/
structure Place where
  names : List String
  node : Option Node
deriving Inhabited

/-- What a disk answers to bytes for a file: it may refuse after it took some of them, but not all. -/
def Disk : Type :=
  (names : List String) → (bytes : List UInt8) → Option (Fin bytes.length × Errno)

namespace Disk

/-- A disk that takes everything. -/
def sound : Disk := fun _ _ => none

instance : Inhabited Disk := ⟨sound⟩

/-- A disk that takes nothing. -/
def full : Disk := fun _ bytes =>
  if h : 0 < bytes.length then some (⟨0, h⟩, .noSpace) else none

/-- The bytes that a disk takes. -/
def taken (disk : Disk) (names : List String) (bytes : List UInt8) : List UInt8 :=
  match disk names bytes with
  | some (count, _) => bytes.take count
  | none => bytes

def verdict (disk : Disk) (names : List String) (bytes : List UInt8) : Except IoFault Unit :=
  match disk names bytes with
  | some (_, e) => .error (.system e)
  | none => .ok ()

end Disk

namespace FileTree

def maxLinks : Nat := 40

def maxName : Nat := 255

def maxPath : Nat := 4095

/-- Whether the text of a path is not too long. -/
def isShort (names : List String) : Bool := (Path.absolute names).utf8ByteSize ≤ maxPath

/-- Walks from a canonical directory along steps; a link at the end is followed if asked. Names that
lead to what does not fit are refused. -/
def walkFrom (root : Node) (fits : List String → Bool) (links : Nat) (here : List String) (follow : Bool)
    (steps : List Path.Step) : Except Errno Place :=
  match steps with
  | [] => .ok ⟨here, root.at? here⟩
  | .root :: rest => walkFrom root fits links [] follow rest
  | .up :: rest =>
    match root.at? here with
    | some (.directory _) => walkFrom root fits links here.dropLast follow rest
    | some _ => .error .notDirectory
    | none => .error .noEntry
  | .stay :: rest =>
    match root.at? here with
    | some (.directory _) => walkFrom root fits links here follow rest
    | some _ => .error .notDirectory
    | none => .error .noEntry
  | .name s :: rest =>
    match root.at? here with
    | some (.directory entries) =>
      if s.utf8ByteSize > maxName || !fits (here ++ [s]) then .error .nameTooLong
      else
        match entries.lookup s with
        | none => if rest.isEmpty then .ok ⟨here ++ [s], none⟩ else .error .noEntry
        | some (.link target) =>
          if rest.isEmpty && !follow then .ok ⟨here ++ [s], some (.link target)⟩
          else
            match links with
            | 0 => .error .loop
            | links + 1 => walkFrom root fits links here follow (Path.linkSteps target ++ rest)
        | some _ => walkFrom root fits links (here ++ [s]) follow rest
    | some _ => .error .notDirectory
    | none => .error .noEntry
termination_by (links, steps.length)

/-- Where an absolute path leads, links at the end followed. -/
def walk (root : Node) (names : List String) : Except Errno Place :=
  if isShort names then walkFrom root (fun _ => true) maxLinks [] true (names.map Path.stepOf)
  else .error .nameTooLong

/-- Where an absolute path leads, a link at the end not followed. -/
def walkShort (root : Node) (names : List String) : Except Errno Place :=
  if isShort names then walkFrom root (fun _ => true) maxLinks [] false (names.map Path.stepOf)
  else .error .nameTooLong

def hasNul (names : List String) : Bool := names.any fun s => s.toList.contains (Char.ofNat 0)

/-- The node at an absolute path, links followed. -/
def find? (root : Node) (names : List String) : Option Node :=
  if hasNul names then none
  else match walk root names with
    | .ok place => place.node
    | .error _ => none

def isFile (root : Node) (names : List String) : Bool := (find? root names).any (·.isFile)

def isDirectory (root : Node) (names : List String) : Bool :=
  (find? root names).any (·.isDirectory)

/-- The canonical form of a path to something that exists. Not the path has to be short, but each
canonical path on the way. -/
def canonicalize (root : Node) (names : List String) : Except IoFault (List String) :=
  if hasNul names then .error .nulInName
  else match walkFrom root isShort maxLinks [] true (names.map Path.stepOf) with
    | .ok ⟨names, some _⟩ => .ok names
    | .ok ⟨_, none⟩ => .error (.system .noEntry)
    | .error e => .error (.system e)

def read (root : Node) (names : List String) : Except IoFault (List UInt8) :=
  if hasNul names then .error .nulInName
  else match walk root names with
    | .ok ⟨_, some (.file content)⟩ => .ok content
    | .ok ⟨_, some (.directory _)⟩ => .error (.system .isDirectory)
    | .ok ⟨_, some _⟩ => .error (.system .noDevice)
    | .ok ⟨_, none⟩ => .error (.system .noEntry)
    | .error e => .error (.system e)

def readLink (root : Node) (names : List String) : Except IoFault String :=
  if hasNul names then .error .nulInName
  else match walkShort root names with
    | .ok ⟨_, some (.link target)⟩ => .ok target
    | .ok ⟨_, some _⟩ => .error (.system .invalid)
    | .ok ⟨_, none⟩ => .error (.system .noEntry)
    | .error e => .error (.system e)

/-- Opens a file, which is made if it does not exist, and leaves it with another content. -/
def update (root : Node) (names : List String) (f : List UInt8 → List UInt8) :
    Except IoFault Node :=
  if hasNul names then .error .nulInName
  else match walk root names with
    | .ok ⟨names, some (.file content)⟩ => .ok (root.set names (some (.file (f content))))
    | .ok ⟨_, some (.directory _)⟩ => .error (.system .isDirectory)
    | .ok ⟨_, some _⟩ => .error (.system .noDevice)
    | .ok ⟨names, none⟩ => .ok (root.set names (some (.file (f []))))
    | .error e => .error (.system e)

/-- Writes bytes to a file after what is kept of it when it is opened. What the disk took stays. -/
def store (disk : Disk) (root : Node) (names : List String) (keep : List UInt8 → List UInt8)
    (bytes : List UInt8) : Except IoFault Unit × Node :=
  match update root names fun content => keep content ++ disk.taken names bytes with
  | .ok root => (disk.verdict names bytes, root)
  | .error fault => (.error fault, root)

/-- The file is emptied when it is opened. -/
def write (disk : Disk) (root : Node) (names : List String) (content : List UInt8) :
    Except IoFault Unit × Node :=
  store disk root names (fun _ => []) content

def append (disk : Disk) (root : Node) (names : List String) (content : List UInt8) :
    Except IoFault Unit × Node :=
  store disk root names id content

/-- Makes one directory; a link at its name counts as taken. -/
def makeDirectory (root : Node) (names : List String) : Except IoFault Node :=
  if hasNul names then .error .nulInName
  else match walkShort root names with
    | .ok ⟨_, some _⟩ => .error (.system .alreadyThere)
    | .ok ⟨names, none⟩ => .ok (root.set names (some (.directory [])))
    | .error e => .error (.system e)

/-- Makes a directory, and before it those above it that are missing. -/
def makeDirectories (root : Node) (names : List String) : Except IoFault Node × Node :=
  let again (root : Node) : Except IoFault Node × Node :=
    match makeDirectory root names with
    | .ok root => (.ok root, root)
    | .error e => if isDirectory root names then (.ok root, root) else (.error e, root)
  match makeDirectory root names with
  | .ok root => (.ok root, root)
  | .error (.system .noEntry) =>
    if _h : names = [] then (.error (.system .noEntry), root)
    else
      match makeDirectories root names.dropLast with
      | (.ok _, root) => again root
      | (.error e, root) => (.error e, root)
  | .error e => if isDirectory root names then (.ok root, root) else (.error e, root)
termination_by names.length
decreasing_by
  have := List.length_pos_iff.mpr _h
  simp only [List.length_dropLast]; omega

def list (root : Node) (names : List String) : Except IoFault (List String) :=
  if hasNul names then .error .nulInName
  else match walk root names with
    | .ok ⟨_, some (.directory entries)⟩ => .ok (entries.map (·.1))
    | .ok ⟨_, some _⟩ => .error (.system .notDirectory)
    | .ok ⟨_, none⟩ => .error (.system .noEntry)
    | .error e => .error (.system e)

/-- Removes what is not a directory; a link is removed itself. -/
def removeFile (root : Node) (names : List String) : Except IoFault Node :=
  if hasNul names then .error .nulInName
  else match walkShort root names with
    | .ok ⟨_, some (.directory _)⟩ => .error (.system .isDirectory)
    | .ok ⟨names, some _⟩ => .ok (root.set names none)
    | .ok ⟨_, none⟩ => .error (.system .noEntry)
    | .error e => .error (.system e)

/-- Removes a directory with everything in it; a link is removed itself. -/
def removeDirectory (root : Node) (names : List String) : Except IoFault Node :=
  if hasNul names then .error .nulInName
  else match walkShort root names with
    | .ok ⟨names, some (.directory _)⟩ => .ok (root.set names none)
    | .ok ⟨names, some (.link _)⟩ => .ok (root.set names none)
    | .ok ⟨_, some _⟩ => .error (.system .notDirectory)
    | .ok ⟨_, none⟩ => .error (.system .noEntry)
    | .error e => .error (.system e)

end FileTree

end Grapnel
