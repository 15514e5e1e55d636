import Grapnel.Guest.Heap
import Grapnel.Script.SourceTag
import Grapnel.Text.Utf8

namespace Grapnel

open Guest

/-- The hooks and the functions that the engine made. Each list has one entry for a function. -/
structure ClosureRegistry where
  hooks : List (FunctionRef × FunctionRef)
  replacements : List (FunctionRef × FunctionRef)
  provenance : List FunctionRef
deriving Inhabited

namespace ClosureRegistry

def empty : ClosureRegistry := ⟨[], [], []⟩

def eraseKey (f : FunctionRef) (entries : List (FunctionRef × FunctionRef)) :
    List (FunctionRef × FunctionRef) :=
  entries.filter fun e => e.1 ≠ f

def insertKey (f value : FunctionRef) (entries : List (FunctionRef × FunctionRef)) :
    List (FunctionRef × FunctionRef) :=
  (f, value) :: eraseKey f entries

variable (r : ClosureRegistry)

/-- Records a function as made by the engine. -/
def mark (f : FunctionRef) : ClosureRegistry :=
  if f ∈ r.provenance then r else { r with provenance := f :: r.provenance }

/-- Records a hook. An earlier hook of the same function is dropped, with the record of its
replacement. -/
def record (hooked replacement : FunctionRef) : ClosureRegistry :=
  let r : ClosureRegistry :=
    match r.hooks.lookup hooked with
    | some old =>
      { r with
        hooks := eraseKey hooked r.hooks
        replacements := eraseKey old r.replacements }
    | none => r
  { r with
    hooks := insertKey hooked replacement r.hooks
    replacements := insertKey replacement hooked r.replacements }

/-- The function that replaces another one. -/
def replacement? (hooked : FunctionRef) : Option FunctionRef := r.hooks.lookup hooked

def hookCount : Nat := r.hooks.length

def isRecorded (f : FunctionRef) : Bool :=
  (r.hooks.lookup f).isSome || (r.replacements.lookup f).isSome || r.provenance.contains f

/-- The name of the chunk that a function was compiled in. -/
def sourceOf (heap : Heap) (f : FunctionRef) : String :=
  match heap.function f with
  | .guest proto _ => Utf8.lossy (untilNul proto.source).toList
  | _ => "=[C]"

/-- Whether the engine made or hooked a function, or compiled it other than from a script as it was
given. -/
def isOurs (heap : Heap) (f : FunctionRef) : Bool :=
  r.isRecorded f || (SourceTag.classify? (sourceOf heap f)).any (·.isManufactured)

end ClosureRegistry

namespace Guest.Heap

/-- The cells of the variables that a guest function captured. -/
def captures (h : Heap) (f : FunctionRef) : Array CellRef :=
  match h.function f with
  | .guest _ captured => captured
  | _ => #[]

/-- The value of the i-th variable that a function captured. -/
def captured? (h : Heap) (f : FunctionRef) (i : Nat) : Option Value :=
  (h.captures f)[i]?.map h.cell

/-- Assigns to the i-th variable that a function captured. -/
def setCaptured (h : Heap) (f : FunctionRef) (i : Nat) (v : Value) : Heap :=
  match (h.captures f)[i]? with
  | some c => h.setCell c v
  | none => h

/-- A value that the host takes and gives back. It takes failures by value, so that one comes back
as an object of its own. -/
def throughHost (h : Heap) (v : Value) : Value × Heap :=
  match v with
  | .userdata u =>
    match h.userdatum u with
    | .failure f =>
      let (u, h) := h.newUserdata (.failure f)
      (.userdata u, h)
    | .connection _ => (v, h)
  | v => (v, h)

theorem captures_setCaptured (h : Heap) (f g : FunctionRef) (i : Nat) (v : Value) :
    (h.setCaptured f i v).captures g = h.captures g := by
  unfold setCaptured
  split <;> rfl

theorem captures_throughHost (h : Heap) (v : Value) (g : FunctionRef) :
    (h.throughHost v).2.captures g = h.captures g := by
  unfold throughHost
  split
  · split <;> rfl
  · rfl

/-- A function made from loaded code. The first variable that it captures holds the globals. -/
def loadCode (h : Heap) (globals : TableRef) (proto : Proto) (count : Nat) : FunctionRef × Heap :=
  let (cells, h) := h.newCells ((List.replicate count Value.nil).set 0 (.table globals))
  h.newFunction (.guest proto cells.toArray)

/-- Assigns the values of a function's variables, from the i-th on, to those of its copy. -/
def copyCaptured (h : Heap) (f copy : FunctionRef) (i : Nat) : Heap :=
  match hi : h.captured? f i with
  | some v =>
    ((h.throughHost v).2.setCaptured copy i (h.throughHost v).1).copyCaptured f copy (i + 1)
  | none => h
termination_by (h.captures f).size - i
decreasing_by
  have hlt : i < (h.captures f).size := by
    obtain ⟨c, hc, -⟩ := Option.map_eq_some_iff.1 hi
    exact (Array.getElem?_eq_some_iff.1 hc).1
  rw [captures_setCaptured, captures_throughHost]
  omega

/-- A function that behaves like another one: a native is called through a forwarder, the code of a
guest function is loaded anew and the present values of its variables are handed over. -/
def duplicate (h : Heap) (globals : TableRef) (f : FunctionRef) : FunctionRef × Heap :=
  match h.function f with
  | .guest proto captured =>
    let (copy, h) := h.loadCode globals proto captured.size
    (copy, h.copyCaptured f copy 0)
  | _ => h.newFunction (.forwarder f)

end Guest.Heap

namespace Guest.Table

/-- Replaces a function in every slot that holds it. -/
def rebind (t : Table) (hooked replacement : FunctionRef) : Table :=
  { t with
    entries := t.entries.map fun _ v =>
      if v = .function hooked then .function replacement else v }

def tables (t : Table) : List TableRef :=
  t.entries.toList.filterMap fun e =>
    match e.2 with
    | .table t => some t
    | _ => none

end Guest.Table

namespace Guest.Heap

/-- Replaces a function in the globals and in the tables stored directly in them. -/
def rebind (h : Heap) (globals : TableRef) (hooked replacement : FunctionRef) : Heap :=
  let h := h.updateTable globals (·.rebind hooked replacement)
  ((h.table globals).tables.filter (· ≠ globals)).foldl
    (fun h t => h.updateTable t (·.rebind hooked replacement)) h

end Guest.Heap

namespace ClosureRegistry

/-- Hooks a function; answers one with its previous behaviour. -/
def hook (r : ClosureRegistry) (heap : Heap) (globals : TableRef)
    (hooked replacement : FunctionRef) : FunctionRef × Heap × ClosureRegistry :=
  let (previous, heap) := heap.duplicate globals hooked
  let r := (r.mark previous).record hooked replacement
  (previous, heap.rebind globals hooked replacement, r)

end ClosureRegistry

end Grapnel
