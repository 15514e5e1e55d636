import Grapnel.FileTree.Content
import Grapnel.Process.Maps
import Grapnel.Process.Record
import Grapnel.Process.Source

namespace Grapnel

structure Procfs where
  root : List String
  /-- Fragments of control group names that betray a container. -/
  markers : List String
deriving Inhabited

namespace Procfs

def standardMarkers : List String :=
  ["docker", "containerd", "podman", "libpod", "lxc", "kubepods"]

variable (s : Procfs)

def entry (pid : Nat) (name : String) : List String := s.root ++ [toString pid, name]

def isContained (groups : String) : Bool :=
  s.markers.any fun marker => Text.hasInfix marker.toList groups.toList

/-- The description of one process. All but the status line may be missing. -/
def process (files : Node) (pid : Nat) : Except SourceFault ProcessInfo := do
  match FileTree.readText files (s.entry pid "stat") with
  | .error fault => throw (.io fault)
  | .ok stat =>
    match ProcessRecord.parseStat stat with
    | none => throw (.malformedStat pid)
    | some (name, parent) =>
      let args := match FileTree.read files (s.entry pid "cmdline") with
        | .ok content => ProcessRecord.parseCommandLine content
        | .error _ => []
      let executable := (FileTree.readLink files (s.entry pid "exe")).toOption
      let contained := match FileTree.readText files (s.entry pid "cgroup") with
        | .ok groups => s.isContained groups
        | .error _ => false
      return ⟨pid, name, args, executable, if parent = 0 then none else some parent,
        Hosting.none.addIf contained .containerized⟩

/-- The number that a directory is named by. -/
def pid? (name : String) : Option Nat := Text.readDecimal? (2 ^ 32) name.toList

/-- Every process that can be described, by number. -/
def processes (files : Node) : Except SourceFault (List ProcessInfo) :=
  match FileTree.list files s.root with
  | .error fault => .error (.io fault)
  | .ok names =>
    .ok (((names.filterMap pid?).filterMap fun pid => (s.process files pid).toOption).mergeSort
      fun a b => a.pid ≤ b.pid)

def regions (files : Node) (pid : Nat) : Except SourceFault (List Region) :=
  match FileTree.readText files (s.entry pid "maps") with
  | .error fault => .error (.io fault)
  | .ok maps => Maps.regions maps

/-- The directory as a source in a world that holds its file tree. -/
def source {W : Type} (files : W → Node) : ProcessSource W where
  processes w := (s.processes (files w), w)
  regions pid w := (s.regions (files w) pid, w)

end Procfs

end Grapnel
