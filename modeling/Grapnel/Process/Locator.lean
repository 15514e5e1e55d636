import Grapnel.Process.Source
import Grapnel.Process.Table

namespace Grapnel

structure LocatorConfig where
  names : List String
  /-- What a path mapped by the target has in it; the names, if absent. -/
  moduleFragment : Option String
  compatHosts : List String
  sandboxWrappers : List String
deriving DecidableEq, Inhabited

namespace LocatorConfig

def standard : LocatorConfig where
  names := []
  moduleFragment := none
  compatHosts := ["wine", "wine64", "wine-preloader", "wine64-preloader", "wineserver"]
  sandboxWrappers := ["bwrap", "flatpak", "flatpak-session-helper"]

variable (c : LocatorConfig)

def isTarget (p : ProcessInfo) : Bool := c.names.any p.isNamed

def mentionsTarget (p : ProcessInfo) : Bool := c.names.any p.mentions

def isCompatHost (p : ProcessInfo) : Bool := c.compatHosts.any p.isNamed

def isSandboxWrapper (p : ProcessInfo) : Bool := c.sandboxWrappers.any p.isNamed

def fragments : List (List Char) :=
  match c.moduleFragment with
  | some fragment => [Text.lowered fragment]
  | none => c.names.map Text.lowered

def hasModule (regions : List Region) : Bool :=
  regions.any fun r => r.path.any fun path =>
    c.fragments.any fun fragment => Text.hasInfix fragment (Text.lowered path)

end LocatorConfig

inductive DiscoveryMethod where
  | directName
  | compatCommandLine
  | compatModule
  | sandbox
deriving DecidableEq, Inhabited

namespace DiscoveryMethod

def name : DiscoveryMethod → String
  | .directName => "DirectName"
  | .compatCommandLine => "CompatCommandLine"
  | .compatModule => "CompatModule"
  | .sandbox => "Sandbox"

end DiscoveryMethod

structure LocatedProcess where
  process : ProcessInfo
  method : DiscoveryMethod
deriving DecidableEq, Inhabited

namespace Locator

variable (c : LocatorConfig) (t : ProcessTable)

/-- Adds processes whose numbers are not there yet. -/
def addNew (found ps : List ProcessInfo) : List ProcessInfo :=
  ps.foldl (fun found p => if found.any (·.pid = p.pid) then found else found ++ [p]) found

/-- Compatibility hosts, each followed by its descendants. -/
def compatFamily : List ProcessInfo :=
  (t.processes.filter c.isCompatHost).foldl
    (fun found host => addNew found (host :: t.descendants host.pid)) []

def byName : Option ProcessInfo := t.processes.find? c.isTarget

def byCompatCommandLine : Option ProcessInfo := (compatFamily c t).find? c.mentionsTarget

/-- The first process that has the module mapped; one whose regions are refused has not. -/
def findModule {W : Type} (s : ProcessSource W) : List ProcessInfo → W → Option ProcessInfo × W
  | [], w => (none, w)
  | p :: ps, w =>
    match s.regions p.pid w with
    | (.ok regions, w) => if c.hasModule regions then (some p, w) else findModule s ps w
    | (.error _, w) => findModule s ps w

/-- What a wrapper leads to: a descendant that is or mentions the target or, if the wrapper itself
mentions it, its last descendant. -/
def wrapped (wrapper : ProcessInfo) : Option ProcessInfo :=
  let below := t.descendants wrapper.pid
  match below.find? fun p => c.isTarget p || c.mentionsTarget p with
  | some p => some p
  | none => if c.mentionsTarget wrapper then some (below.getLast?.getD wrapper) else none

def bySandbox : Option ProcessInfo :=
  (t.processes.filter c.isSandboxWrapper).findSome? (wrapped c t)

def find {W : Type} (s : ProcessSource W) (w : W) : Option (ProcessInfo × DiscoveryMethod) × W :=
  match byName c t with
  | some p => (some (p, .directName), w)
  | none =>
    match byCompatCommandLine c t with
    | some p => (some (p, .compatCommandLine), w)
    | none =>
      match findModule c s (compatFamily c t) w with
      | (some p, w) => (some (p, .compatModule), w)
      | (none, w) => ((bySandbox c t).map fun p => (p, .sandbox), w)

/-- What a process that was found runs in: how it was found and who is above it tell. -/
def hosting (p : ProcessInfo) (method : DiscoveryMethod) : Hosting :=
  let lineage := p :: t.ancestors p.pid
  let compat := method = .compatCommandLine || method = .compatModule || lineage.any c.isCompatHost
  let sandboxed := method = .sandbox || lineage.any c.isSandboxWrapper
  (p.hosting.addIf compat .compatLayer).addIf sandboxed .sandboxed

/-- Looks for the process that the configuration describes. -/
def locate {W : Type} (s : ProcessSource W) (w : W) :
    Except SourceFault (Option LocatedProcess) × W :=
  if c.names.isEmpty then (.ok none, w)
  else
    match s.processes w with
    | (.error fault, w) => (.error fault, w)
    | (.ok processes, w) =>
      let t : ProcessTable := ⟨processes⟩
      let (found, w) := find c t s w
      (.ok (found.map fun (p, method) =>
        ⟨{ p with hosting := hosting c t p method }, method⟩), w)

end Locator

end Grapnel
