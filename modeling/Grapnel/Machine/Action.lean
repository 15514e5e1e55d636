import Grapnel.Machine.State

namespace Grapnel

open Guest

namespace Guest

namespace Origin

def shown (o : Origin) : Text := text (" (" ++ o.kind ++ " '") ++ o.name ++ text "')"

end Origin

namespace OperationFault

/-- The wording of a failure; `origin` tells where an operand came from. -/
def message (origin : Side → Option Origin) : OperationFault → Text
  | .typed verb type side =>
    text ("attempt to " ++ verb ++ " a ") ++ type ++ text " value" ++ shownOrigin side
  | .notWhole side =>
    text "number" ++ shownOrigin (some side) ++ text " has no integer representation"
  | .plain message => message
where
  shownOrigin (side : Option Side) : Text :=
    ((side.bind origin).map Origin.shown).getD .empty

end OperationFault

end Guest

namespace Action

/-- Runs the machine until a call is over that a native makes at a depth. -/
def nestedAt (depth : Nat) (isSealed : Bool) (f : Value) (args : List Value) :
    Action (Except Value (List Value)) := do
  let run ← read
  let before ← get
  let frame : Frame := ⟨.native isSealed, depth, before.used⟩
  set (run { before with frames := frame :: before.frames, control := .call f args none })
  let after ← get
  match after.control with
  | .halt (.finished results) =>
    set { after with frames := after.frames.tail, control := .run }
    return .ok results
  | .halt (.failed error) =>
    set { after with frames := after.frames.tail, control := .run }
    return .error error
  | _ =>
    set { after with frames := before.frames, control := .run }
    return .error .nil

def tooDeep : Value := .string (text "C stack overflow")

def hopeless : Value := .string (text "error in error handling")

/-- What becomes of an error where it is raised: a handler may replace it. -/
def handled (error : Value) : Action Value := do
  let m ← get
  match Machine.handlerIn m.frames with
  | none => return error
  | some handler =>
    let depth := m.depth + 1
    if Machine.fatalDepth ≤ depth then return hopeless
    let overflows := depth = Machine.maxDepth
    match ← nestedAt (if overflows then depth + 1 else depth) false handler
        [if overflows then tooDeep else error] with
    | .ok results => return results.headD .nil
    | .error error => return error

def fail {α : Type} (error : Value) : Action α := do throw (← handled error)

def failText {α : Type} (message : Text) : Action α := fail (.string message)

/-- Raises a text with the position of the frame some levels up. -/
def failAt {α : Type} (level : Nat) (message : Text) : Action α := do
  failText ((← get).positionAt level ++ message)

/-- Raises a text with the position of the top frame. -/
def failHere {α : Type} (message : String) : Action α := failAt 1 (text message)

/-- Calls a function from a native; its errors end the native. -/
def callBack (f : Value) (args : List Value) : Action (List Value) := do
  let depth := (← get).depth + 1
  if depth = Machine.maxDepth then fail tooDeep
  else if Machine.fatalDepth ≤ depth then throw hopeless
  else match ← nestedAt depth false f args with
    | .ok results => return results
    | .error error => throw error

/-- Calls a function from a native that takes care of its errors. -/
def callSealed (f : Value) (args : List Value) : Action (Except Value (List Value)) := do
  let depth := (← get).depth + 1
  if depth = Machine.maxDepth then return .error tooDeep
  else if Machine.fatalDepth ≤ depth then return .error hopeless
  else nestedAt depth true f args

def heap : Action Heap := return (← get).heap

def onHeap {α : Type} (f : Heap → α × Heap) : Action α :=
  modifyGet fun m =>
    let (a, heap) := f m.heap
    (a, { m with heap })

def modifyHeap (f : Heap → Heap) : Action Unit := modify fun m => { m with heap := f m.heap }

def newTable (t : Table) : Action Value := return .table (← onHeap (·.newTable t))

def newFunction (f : Function) : Action Value := return .function (← onHeap (·.newFunction f))

def newList (values : List Value) : Action Value :=
  newTable ((values.zipIdx 1).foldl
    (fun t (v, i) => t.set (.integer (Int64.ofNat i)) v) { Table.empty with listed := values.length })

/-- Carries out an attempt for a native: no operand has an origin and no message a position. -/
def settle {α : Type} (fromResult : Value → α) : Attempt α → Action α
  | .done a => return a
  | .call f args => return fromResult ((← callBack f args).headD .nil)
  | .fault fault => failText (fault.message fun _ => none)

def settleValue : Attempt Value → Action Value := settle id

def index (object key : Value) : Action Value := do settleValue ((← heap).index object key)

def indexNat (object : Value) (n : Int) : Action Value := index object (.integer (Int64.ofInt n))

def assign (object key value : Value) : Action Unit := do
  match (← heap).assign object key value with
  | .done place => modifyHeap (·.store place value)
  | .call f args => discard (callBack f args)
  | .fault fault => failText (fault.message fun _ => none)

def assignNat (object : Value) (n : Int) (value : Value) : Action Unit :=
  assign object (.integer (Int64.ofInt n)) value

def lessThan (a b : Value) : Action Bool := do settle Value.truthy ((← heap).ordered true a b)

/-- The length of a value, which has to be a whole number. -/
def lengthOf (v : Value) : Action Int := do
  match (← settleValue ((← heap).length v)) with
  | .integer n => return n.toInt
  | v =>
    match v.coerced?.bind fun n => (Value.ofNumeral n).whole? with
    | some n => return n.toInt
    | none => failHere "object length is not an integer"

/-- A made-up address, different for every object. -/
def address (space index : Nat) : Text :=
  let digits := Nat.toDigits 16 (0x55d0c0000000 + 0x10000000 * space + 64 * index)
  text ("0x" ++ String.ofList digits)

def addressOf : Value → Text
  | .table t => address 0 t.index
  | .function f => address 1 f.index
  | .thread t => address 2 t.index
  | .userdata u => address 3 u.index
  | _ => text "(null)"

/-- The text of a value, which its metatable may make. -/
def toText (v : Value) : Action Text := do
  let heap ← heap
  match heap.event v "__tostring" with
  | .nil =>
    match v with
    | .nil => return text "nil"
    | .boolean b => return text (if b then "true" else "false")
    | .string s => return s
    | v =>
      match v.text? with
      | some s => return s
      | none => return heap.typeName v ++ text ": " ++ addressOf v
  | f =>
    match ((← callBack f [v]).headD .nil).text? with
    | some s => return s
    | none => failHere "'__tostring' must return a string"

end Action

/-- A call of a native: its arguments, the function itself and the name that it was called by. -/
structure NativeCall where
  args : List Value
  self : FunctionRef
  name : Option Origin
deriving Inhabited

namespace NativeCall

variable (c : NativeCall)

/-- An argument by its position from one on. -/
def arg? (i : Nat) : Option Value := if i = 0 then none else c.args[i - 1]?

def arg (i : Nat) : Value := (c.arg? i).getD .nil

def isAbsent (i : Nat) : Bool := c.arg i == .nil

/-- The name of a library function: the library's and its own, without the library for globals. -/
def libraryName (m : Machine) (f : FunctionRef) : Option Text :=
  m.libraries.findSome? fun (library, t) =>
    ((m.heap.table t).present.find? fun e => e.2 == .function f).bind fun e =>
      match e.1 with
      | .string s => some (if library = "_G" then s else text (library ++ ".") ++ s)
      | _ => none

/-- Refuses an argument. The object of a method call is not counted. -/
def refuse {α : Type} (i : Nat) (reason : Text) : Action α := do
  let bad (i : Nat) (name : Text) : Action α :=
    Action.failAt 1 (text ("bad argument #" ++ toString i ++ " to '") ++ name ++ text "' ("
      ++ reason ++ text ")")
  match c.name with
  | some ⟨"method", name⟩ =>
    if i = 1 then
      Action.failAt 1 (text "calling '" ++ name ++ text "' on bad self (" ++ reason ++ text ")")
    else bad (i - 1) name
  | some ⟨_, name⟩ => bad i name
  | none => bad i ((libraryName (← get) c.self).getD (text "?"))

def refuseWith {α : Type} (i : Nat) (reason : String) : Action α := c.refuse i (text reason)

def refuseType {α : Type} (i : Nat) (expected : String) : Action α := do
  let got ← match c.arg? i with
    | some v => do pure ((← Action.heap).typeName v)
    | none => pure (text "no value")
  c.refuse i (text (expected ++ " expected, got ") ++ got)

def value (i : Nat) : Action Value := do
  match c.arg? i with
  | some v => return v
  | none => c.refuseWith i "value expected"

def table (i : Nat) : Action TableRef := do
  match c.arg i with
  | .table t => return t
  | _ => c.refuseType i "table"

def function (i : Nat) : Action FunctionRef := do
  match c.arg i with
  | .function f => return f
  | _ => c.refuseType i "function"

def thread (i : Nat) : Action ThreadRef := do
  match c.arg i with
  | .thread t => return t
  | _ => c.refuseType i "coroutine"

/-- A number, or a text that reads as one. -/
def number (i : Nat) : Action Numeral := do
  match (c.arg i).coerced? with
  | some n => return n
  | none => c.refuseType i "number"

def double (i : Nat) : Action Double := return (← c.number i).toDouble

def integer (i : Nat) : Action Int64 := do
  match (c.arg i).coerced? with
  | some n =>
    match (Value.ofNumeral n).whole? with
    | some n => return n
    | none => c.refuseWith i "number has no integer representation"
  | none => c.refuseType i "number"

def int (i : Nat) : Action Int := return (← c.integer i).toInt

def intOr (i : Nat) (default : Int) : Action Int :=
  if c.isAbsent i then return default else c.int i

def string (i : Nat) : Action Text := do
  match (c.arg i).text? with
  | some s => return s
  | none => c.refuseType i "string"

def stringOr (i : Nat) (default : Text) : Action Text :=
  if c.isAbsent i then return default else c.string i

end NativeCall

end Grapnel
