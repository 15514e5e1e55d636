import Grapnel.Guest.Builtin
import Grapnel.Guest.Code
import Grapnel.Script.Failure
import Grapnel.Signal.Bus

namespace Grapnel.Guest

/-- A variable of a running function; one that an inner function captured lives in a cell. -/
inductive Slot where
  | value (v : Value)
  | cell (c : CellRef)
deriving Inhabited

/-- What a function does with the results of a call. -/
inductive Await where
  | results (want : Option Nat)
  | truth
  | untruth
  | nothing
  | receiver (object : Value)
  | round (base count : Nat)
deriving Inhabited

structure Activation where
  function : FunctionRef
  proto : Proto
  captured : Array CellRef
  pc : Nat
  slots : Array Slot
  varargs : List Value
  stack : List Value
  spread : Nat
  await : Await
deriving Inhabited

inductive Call where
  | guest (a : Activation)
  /-- A call whose errors are caught; the handler sees them first. -/
  | caught (handler : Option Value)
  /-- A native that called back. One that is sealed handles errors itself. -/
  | native (isSealed : Bool)
deriving Inhabited

/-- A call, how deeply calls by natives are nested in it, and how much space calls up to it take. -/
structure Frame where
  call : Call
  depth : Nat
  used : Nat
deriving Inhabited

inductive ThreadState where
  | fresh (f : FunctionRef)
  | suspended (frames : List Frame)
  | running
  | normal
  | dead (error : Option Value)
deriving Inhabited

/-- A coroutine; `countdown` is the number of steps to its next look at the stop flag. -/
structure Thread where
  state : ThreadState
  countdown : Nat
deriving Inhabited

inductive Function where
  | guest (proto : Proto) (captured : Array CellRef)
  | builtin (b : Builtin)
  | forwarder (target : FunctionRef)
  | resumer (t : ThreadRef)
  /-- Finds the next match of a pattern from `position` on, but none that ends at `last`. -/
  | matcher (source pattern : Text) (position : Nat) (last : Option Nat)
deriving Inhabited

inductive Userdata where
  | connection (h : ConnectionHandle)
  | failure (f : Failure)
deriving Inhabited

/-- Every object with an identity, by its reference. References are never reused. -/
structure Heap where
  tables : Array Table
  functions : Array Function
  cells : Array Value
  threads : Array Thread
  userdata : Array Userdata
  textMeta : Option TableRef
  /-- The metatable of connections and that of failures; the guest never gets hold of them. -/
  connectionMeta : Option TableRef
  failureMeta : Option TableRef
deriving Inhabited

namespace Heap

def empty : Heap := ⟨#[], #[], #[], #[], #[], none, none, none⟩

variable (h : Heap)

def table (t : TableRef) : Table := h.tables.getD t.index .empty

def function (f : FunctionRef) : Function := h.functions.getD f.index default

def cell (c : CellRef) : Value := h.cells.getD c.index .nil

def thread (t : ThreadRef) : Thread := h.threads.getD t.index default

def userdatum (u : UserdataRef) : Userdata := h.userdata.getD u.index default

def updateTable (t : TableRef) (f : Table → Table) : Heap :=
  { h with tables := h.tables.modify t.index f }

def setFunction (f : FunctionRef) (value : Function) : Heap :=
  { h with functions := h.functions.setIfInBounds f.index value }

def setCell (c : CellRef) (value : Value) : Heap :=
  { h with cells := h.cells.setIfInBounds c.index value }

def setThread (t : ThreadRef) (value : Thread) : Heap :=
  { h with threads := h.threads.setIfInBounds t.index value }

def newTable (value : Table) : TableRef × Heap :=
  (⟨h.tables.size⟩, { h with tables := h.tables.push value })

def newFunction (value : Function) : FunctionRef × Heap :=
  (⟨h.functions.size⟩, { h with functions := h.functions.push value })

def newCell (value : Value) : CellRef × Heap :=
  (⟨h.cells.size⟩, { h with cells := h.cells.push value })

def newThread (value : Thread) : ThreadRef × Heap :=
  (⟨h.threads.size⟩, { h with threads := h.threads.push value })

def newUserdata (value : Userdata) : UserdataRef × Heap :=
  (⟨h.userdata.size⟩, { h with userdata := h.userdata.push value })

/-- New cells with the given values, in order. -/
def newCells (h : Heap) : List Value → List CellRef × Heap
  | [] => ([], h)
  | v :: vs =>
    let (c, h) := h.newCell v
    let (cs, h) := h.newCells vs
    (c :: cs, h)

def metatable? : Value → Option TableRef
  | .table t => (h.table t).metatable
  | .string _ => h.textMeta
  | .userdata u =>
    match h.userdatum u with
    | .connection _ => h.connectionMeta
    | .failure _ => h.failureMeta
  | _ => none

/-- What a value's metatable holds for an event. -/
def event (v : Value) (name : String) : Value :=
  match h.metatable? v with
  | some t => (h.table t).getString name
  | none => .nil

/-- The name of a value's type in messages: what its metatable calls it, if that is a text. -/
def typeName (v : Value) : Text :=
  match v with
  | .table _ | .userdata _ =>
    match h.event v "__name" with
    | .string s => s
    | _ => text v.typeName
  | v => text v.typeName

end Heap

end Grapnel.Guest
