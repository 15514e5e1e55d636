import Grapnel.Machine.Library.Chunks

namespace Grapnel

open Guest HostAction

namespace FileLibrary

def onFiles {α : Type} (work : Workspace → FileWork α) : HostAction α := do
  let result ← modifyGet fun (m : Machine) =>
    let (result, files) := (work m.workspace).run m.host.files
    (result, { m with host := { m.host with files } })
  match result with
  | .ok a => return a
  | .error fault => throw (.workspace fault)

def read (c : NativeCall) : HostAction (List Value) := do
  let path ← string c 1
  return [.string ⟨(← onFiles (·.read path)).toArray⟩]

/-- Hands a content over to work that stores it under a path. -/
def store (work : Workspace → String → List UInt8 → FileWork Unit) (c : NativeCall) :
    HostAction (List Value) := do
  let path ← string c 1
  let content ← bytes c 2
  onFiles fun w => work w path content.toList
  return []

/-- Does work on a path that has no result. -/
def change (work : Workspace → String → FileWork Unit) (c : NativeCall) :
    HostAction (List Value) := do
  let path ← string c 1
  onFiles fun w => work w path
  return []

def ask (question : Workspace → Node → String → Bool) (c : NativeCall) :
    HostAction (List Value) := do
  let path ← string c 1
  let m ← get
  return [.boolean (question m.workspace m.host.files path)]

def list (c : NativeCall) : HostAction (List Value) := do
  let path := (← optionalString c 1).getD ""
  let entries ← onFiles (·.list path)
  return [← guest (Action.newList (entries.map Value.ofString))]

/-- Compiles a file of the workspace under its path below the root. -/
def compileFile (path : String) : HostAction FunctionRef := do
  let content ← onFiles (·.read path)
  let names ← onFiles fun w => do w.resolve (← get) path
  let name := (← get).workspace.relative names
  ChunkLibrary.chunkFunction ("@" ++ name) ⟨content.toArray⟩

def load (c : NativeCall) : HostAction (List Value) := do
  let path ← string c 1
  ChunkLibrary.orText (compileFile path)

def run (c : NativeCall) : HostAction (List Value) := do
  let f ← compileFile (← string c 1)
  call (.function f) []

def body (f : FileFunction) (c : NativeCall) : HostAction (List Value) :=
  match f with
  | .read => read c
  | .write => store Workspace.write c
  | .append => store Workspace.append c
  | .isFile => ask Workspace.isFile c
  | .isFolder => ask Workspace.isFolder c
  | .makeFolder => change Workspace.makeFolder c
  | .list => list c
  | .deleteFile => change Workspace.deleteFile c
  | .deleteFolder => change Workspace.deleteFolder c
  | .load => load c
  | .run => run c

end FileLibrary

end Grapnel
