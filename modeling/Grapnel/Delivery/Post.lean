import Grapnel.FileTree.Basic

namespace Grapnel

structure Post where
  files : Node
  waiting : List (List UInt8)
deriving Inhabited

namespace Post

/-- The names of a socket's path, which has to be short. -/
def socketNames (path : String) : Except IoFault (List String) :=
  if path.toList.contains (Char.ofNat 0) then .error .nulInSocketPath
  else if 108 ≤ path.utf8ByteSize then .error .socketPathTooLong
  else .ok (Path.names path)

def exists? (p : Post) (path : String) : Bool :=
  (FileTree.find? p.files (Path.names path)).isSome

/-- Sends a body to whoever listens at a path. -/
def deliver (p : Post) (path : String) (body : List UInt8) : Except IoFault Unit × Post :=
  match socketNames path with
  | .error fault => (.error fault, p)
  | .ok names =>
    match FileTree.walk p.files names with
    | .ok ⟨_, some (.socket true)⟩ => (.ok (), { p with waiting := p.waiting ++ [body] })
    | .ok ⟨_, some _⟩ => (.error (.system .refused), p)
    | .ok ⟨_, none⟩ => (.error (.system .noEntry), p)
    | .error e => (.error (.system e), p)

/-- Starts to listen at a path at which nothing is. -/
def bind (p : Post) (path : String) : Except IoFault Post :=
  match socketNames path with
  | .error fault => .error fault
  | .ok names =>
    match FileTree.walkShort p.files names with
    | .ok ⟨_, some _⟩ => .error (.system .addressInUse)
    | .ok ⟨names, none⟩ => .ok ⟨p.files.set names (some (.socket true)), []⟩
    | .error e => .error (.system e)

/-- Removes a socket that was left at a path; nothing else is removed. -/
def removeStale (p : Post) (path : String) : Except IoFault Post :=
  let names := Path.names path
  if FileTree.hasNul names then .error .nulInName
  else
    match FileTree.walkShort p.files names with
    | .ok ⟨names, some (.socket _)⟩ => .ok { p with files := p.files.set names none }
    | .ok ⟨_, some _⟩ => .error .notSocket
    | .ok ⟨_, none⟩ => .ok p
    | .error .noEntry => .ok p
    | .error e => .error (.system e)

/-- Stops listening and removes what is at the path, if it can be removed. -/
def close (p : Post) (path : String) : Post :=
  match FileTree.removeFile p.files (Path.names path) with
  | .ok files => ⟨files, []⟩
  | .error _ => { p with waiting := [] }

def take? (p : Post) : Option (List UInt8 × Post) :=
  match p.waiting with
  | [] => none
  | body :: waiting => some (body, { p with waiting })

end Post

end Grapnel
