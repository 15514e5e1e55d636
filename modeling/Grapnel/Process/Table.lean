import Grapnel.Process.Basic

namespace Grapnel

structure ProcessTable where
  processes : List ProcessInfo
deriving Inhabited

namespace ProcessTable

variable (t : ProcessTable)

def get? (pid : Nat) : Option ProcessInfo := t.processes.reverse.find? (·.pid = pid)

def children (pid : Nat) : List ProcessInfo := t.processes.filter (·.parent = some pid)

/-- Those of some processes that are neither the root of a search nor found already. -/
def newcomers (root : Nat) : (found : List ProcessInfo) → List ProcessInfo → List ProcessInfo
  | _, [] => []
  | found, p :: ps =>
    if p.pid = root ∨ found.any (·.pid = p.pid) then newcomers root found ps
    else p :: newcomers root (found ++ [p]) ps

/-- Goes on with a search: the children of the first process in the queue are found next. -/
def searchFrom (root : Nat) :
    (fuel : Nat) → (queue : List Nat) → (found : List ProcessInfo) → List ProcessInfo
  | 0, _, found => found
  | _, [], found => found
  | fuel + 1, pid :: queue, found =>
    let new := newcomers root found (t.children pid)
    searchFrom root fuel (queue ++ new.map (·.pid)) (found ++ new)

/-- The processes below a number, nearer ones first. Each number is queued once. -/
def descendants (pid : Nat) : List ProcessInfo :=
  t.searchFrom pid (t.processes.length + 1) [pid] []

/-- Goes on upwards from a parent until there is none or one comes again. -/
def climbFrom (root : Nat) :
    (fuel : Nat) → (parent : Option Nat) → (found : List ProcessInfo) → List ProcessInfo
  | 0, _, found => found
  | _, none, found => found
  | fuel + 1, some pid, found =>
    match t.get? pid with
    | some p =>
      if p.pid = root ∨ found.any (·.pid = p.pid) then found
      else climbFrom root fuel p.parent (found ++ [p])
    | none => found

/-- The processes above a number, nearer ones first. -/
def ancestors (pid : Nat) : List ProcessInfo :=
  t.climbFrom pid (t.processes.length + 1) ((t.get? pid).bind (·.parent)) []

end ProcessTable

end Grapnel
