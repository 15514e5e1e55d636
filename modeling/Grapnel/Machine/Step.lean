import Grapnel.Machine.Library.Base
import Grapnel.Machine.Library.Clock
import Grapnel.Machine.Library.Closures
import Grapnel.Machine.Library.Codepoints
import Grapnel.Machine.Library.Files
import Grapnel.Machine.Library.Host
import Grapnel.Machine.Library.List
import Grapnel.Machine.Library.Math
import Grapnel.Machine.Library.Signals
import Grapnel.Machine.Library.Tasks

namespace Grapnel

open Guest

namespace Guest.Builtin

/-- Carries out a builtin that needs no frame of its own. -/
def perform (b : Builtin) (c : NativeCall) : Action (List Value) :=
  match b with
  | .base f => BaseLibrary.perform f c
  | .coroutine f => Coroutine.perform f c
  | .string f => TextLibrary.perform f c
  | .table f => ListLibrary.perform f c
  | .math f => MathLibrary.perform f c
  | .utf8 f => CodepointLibrary.perform f c
  | .clock f => ClockLibrary.perform f c
  | .task f => HostAction.perform (TaskLibrary.body f c)
  | .signal f => HostAction.perform (SignalLibrary.body f c)
  | .closure f => HostAction.perform (ClosureLibrary.body f c)
  | .file f => HostAction.perform (FileLibrary.body f c)
  | .host f => HostAction.perform (HostLibrary.body f c)

end Guest.Builtin

namespace Step

def deliver (results : List Value) : Action Unit := modify (·.deliver results)

def push (call : Call) (depth space : Nat) : Action Unit :=
  modify fun m => { m with frames := ⟨call, depth, m.used + space⟩ :: m.frames }

/-- The name that a metatable's function is called by. -/
def eventOrigin (name : String) : Origin := ⟨"metamethod", text (name.drop 2).toString⟩

/-- The depth of a callee. A function that a metatable names is called by the machine itself. -/
def calleeDepth (name : Option Origin) : Action Nat := do
  let depth := (← get).depth
  match name with
  | some ⟨"metamethod", _⟩ =>
    if depth + 1 = Machine.maxDepth then Action.failHere "C stack overflow"
    else if Machine.fatalDepth ≤ depth + 1 then throw Action.hopeless
    else return depth + 1
  | _ => return depth

def enterGuest (f : FunctionRef) (proto : Proto) (captured : Array CellRef) (args : List Value)
    (depth : Nat) : Action Unit := do
  let signature := proto.signature
  let space := signature.slots + 8
  if Machine.maxUsed < (← get).used + space then Action.failHere "stack overflow"
  let params := args.take signature.params
  let slots := (params.map Slot.value).toArray
  let slots := slots ++ Array.replicate (signature.slots - params.length) (Slot.value .nil)
  let varargs := if signature.variadic then args.drop signature.params else []
  push (.guest ⟨f, proto, captured, 0, slots, varargs, [], 0, .nothing⟩) depth space
  modify fun m => { m with control := .run }

def enterCaught (handler : Option Value) (f : Value) (args : List Value) : Action Unit := do
  let depth := (← get).depth + 1
  push (.caught handler) depth 0
  if depth = Machine.maxDepth then Action.fail Action.tooDeep
  else if Machine.fatalDepth ≤ depth then throw Action.hopeless
  else modify fun m => { m with control := .call f args none }

def yield (values : List Value) : Action Unit := do
  let m ← get
  if m.isYieldable then set { m with control := .halt (.yielded values) }
  else if m.thread = Machine.mainThread then
    Action.failText (text "attempt to yield from outside a coroutine")
  else Action.failText (text "attempt to yield across a C-call boundary")

def callBuiltin (b : Builtin) (c : NativeCall) : Action Unit := do
  match b with
  | .base .pcall =>
    discard (c.value 1)
    enterCaught none (c.arg 1) (c.args.drop 1)
  | .base .xpcall =>
    let handler ← c.function 2
    enterCaught (some (.function handler)) (c.arg 1) (c.args.drop 2)
  | .coroutine .yield => yield c.args
  | b => deliver (← b.perform c)

def callFunction (f : FunctionRef) (args : List Value) (name : Option Origin) : Action Unit := do
  let depth ← calleeDepth name
  match (← Action.heap).function f with
  | .guest proto captured => enterGuest f proto captured args depth
  | .builtin b => callBuiltin b ⟨args, f, name⟩
  | .forwarder target =>
    deliver (← HostAction.perform (HostAction.call (.function target) args))
  | .resumer t => deliver (← Coroutine.callResumer t args)
  | .matcher source pattern position last =>
    deliver (← TextLibrary.advanceMatcher f source pattern position last)

/-- The function that a callee stands for and its arguments: what is no function needs one in its
metatable, and becomes the first argument. -/
def callee? (heap : Heap) : (fuel : Nat) → Value → List Value → Option (FunctionRef × List Value)
  | 0, _, _ => none
  | fuel + 1, f, args =>
    match f with
    | .function f => some (f, args)
    | f =>
      match heap.event f "__call" with
      | .nil => none
      | next => callee? heap fuel next (f :: args)

def maxCallees : Nat := 100

def call (f : Value) (args : List Value) (name : Option Origin) : Action Unit := do
  let heap ← Action.heap
  match callee? heap maxCallees f args with
  | some (f, args) => callFunction f args name
  | none =>
    Action.failAt 1 (text "attempt to call a " ++ heap.typeName f ++ text " value"
      ++ (name.map Origin.shown).getD .empty)

def top : Action Activation := do
  match (← get).frames with
  | ⟨.guest a, _, _⟩ :: _ => return a
  | _ => throw .nil

def setTop (a : Activation) : Action Unit :=
  modify fun m =>
    match m.frames with
    | f :: rest => { m with frames := { f with call := .guest a } :: rest }
    | [] => m

def readSlot (heap : Heap) (a : Activation) (i : Nat) : Value :=
  match a.slots.getD i (.value .nil) with
  | .value v => v
  | .cell c => heap.cell c

def readCaptured (heap : Heap) (a : Activation) (i : Nat) : Value :=
  heap.cell (a.captured.getD i default)

/-- An operand, and the stack without it. -/
def operand (heap : Heap) (a : Activation) (stack : List Value) : Operand → Value × List Value
  | .stack => (stack.headD .nil, stack.tail)
  | .slot i => (readSlot heap a i, stack)
  | .captured i => (readCaptured heap a i, stack)
  | .fixed v => (v, stack)

/-- Calls a function and does with its results as told. -/
def callThen (a : Activation) (await : Await) (f : Value) (args : List Value)
    (name : Option Origin) : Action Unit := do
  setTop { a with await }
  call f args name

def pushValue (a : Activation) (stack : List Value) (v : Value) : Action Unit :=
  setTop { a with stack := v :: stack }

/-- Raises a failed operation with its position and the origins of its operands. -/
def failOperation (fault : OperationFault) (origin : Side → Option Origin) : Action Unit :=
  Action.failAt 1 (fault.message origin)

def finish (a : Activation) (stack : List Value) (event : String) (origin : Side → Option Origin) :
    Attempt Value → Action Unit
  | .done v => pushValue a stack v
  | .call f args => callThen { a with stack } (.results (some 1)) f args (some (eventOrigin event))
  | .fault fault => failOperation fault origin

def finishTest (a : Activation) (stack : List Value) (negated : Bool) (event : String)
    (origin : Side → Option Origin) : Attempt Bool → Action Unit
  | .done b => pushValue a stack (.boolean (b != negated))
  | .call f args =>
    callThen { a with stack } (if negated then .untruth else .truth) f args
      (some (eventOrigin event))
  | .fault fault => failOperation fault origin

def single (origin : Option Origin) : Side → Option Origin
  | .left => origin
  | .right => none

def unaryEvent : UnaryOp → String
  | .negate => "__unm"
  | .not => "__not"
  | .length => "__len"
  | .complement => "__bnot"

def binary (a : Activation) (stack : List Value) (op : BinaryOp) (x y : Value)
    (origin : Side → Option Origin) : Action Unit := do
  let heap ← Action.heap
  let test (negated : Bool) (attempt : Attempt Bool) : Action Unit :=
    finishTest a stack negated op.event origin attempt
  match op with
  | .eq => test false (heap.equal x y)
  | .ne => test true (heap.equal x y)
  | .lt => test false (heap.ordered true x y)
  | .le => test false (heap.ordered false x y)
  | .gt => test false (heap.ordered true y x)
  | .ge => test false (heap.ordered false y x)
  | .concat => finish a stack op.event origin (heap.concat x y)
  | op =>
    finish a stack op.event origin
      (if op.isBitwise then heap.bitwise op x y else heap.arithmetic op x y)

def storeSlot (a : Activation) (i : Nat) (v : Value) : Action Unit := do
  match a.slots.getD i (.value .nil) with
  | .value _ => setTop { a with slots := a.slots.setIfInBounds i (.value v) }
  | .cell c =>
    setTop a
    Action.modifyHeap (·.setCell c v)

/-- The cell of a variable, which is made if it has none. -/
def cellOf (a : Activation) (i : Nat) : Action (CellRef × Activation) := do
  match a.slots.getD i (.value .nil) with
  | .cell c => return (c, a)
  | .value v =>
    let c ← Action.onHeap (·.newCell v)
    return (c, { a with slots := a.slots.setIfInBounds i (.cell c) })

def capture (a : Activation) : List Capture → Action (List CellRef × Activation)
  | [] => return ([], a)
  | k :: ks => do
    let (c, a) ← if k.fromSlot then cellOf a k.index else pure (a.captured.getD k.index default, a)
    let (cs, a) ← capture a ks
    return (c :: cs, a)

def setSlots (a : Activation) (base : Nat) (values : List Value) : Activation :=
  { a with
    slots := (values.zipIdx base).foldl
      (fun slots (v, i) => slots.setIfInBounds i (.value v)) a.slots }

def failLoop {α : Type} (what : String) (v : Value) : Action α := do
  Action.failAt 1 (text ("bad 'for' " ++ what ++ " (number expected, got ")
    ++ (← Action.heap).typeName v ++ text ")")

def loopNumber (what : String) (v : Value) : Action Double := do
  match v.coerced? with
  | some n => return n.toDouble
  | none => failLoop what v

/-- The limit of a loop over whole numbers, clipped to them; `none` if no number is within it. -/
def loopLimit (ascending : Bool) (v : Value) : Action (Option Int) := do
  match v.coerced? with
  | some (.integer n) => return some n.toInt
  | some (.float x) =>
    match (if ascending then x.floor else x.ceil).toInt? with
    | some n =>
      if ascending then
        return if n < -(2 ^ 63) then none else some (min n (2 ^ 63 - 1))
      else return if 2 ^ 63 ≤ n then none else some (max n (-(2 ^ 63)))
    | none =>
      if x.isNaN then return if ascending then none else some (-(2 ^ 63))
      else if ascending then return if x.signBit then none else some (2 ^ 63 - 1)
      else return if x.signBit then some (-(2 ^ 63)) else none
  | none => failLoop "limit" v

/-- Prepares a numeric loop: over whole numbers the limit gives way to the count of rounds. -/
def countPrep (a : Activation) (base exit : Nat) : Action Unit := do
  let heap ← Action.heap
  let start := readSlot heap a base
  let limit := readSlot heap a (base + 1)
  let step := readSlot heap a (base + 2)
  match start, step with
  | .integer i, .integer s =>
    if s = 0 then Action.failHere "'for' step is zero"
    match ← loopLimit (0 < s) limit with
    | none => setTop { a with pc := exit }
    | some l =>
      let first := i.toInt
      if (if 0 < s then l < first else first < l) then setTop { a with pc := exit }
      else
        let rounds := (l - first).natAbs / s.toInt.natAbs
        setTop (setSlots a base [start, .integer (UInt64.ofNat rounds).toInt64, step, start])
  | _, _ =>
    let l ← loopNumber "limit" limit
    let s ← loopNumber "step" step
    let x ← loopNumber "initial value" start
    if s.isZero then Action.failHere "'for' step is zero"
    if (if Double.zero.lt s then l.lt x else x.lt l) then setTop { a with pc := exit }
    else setTop (setSlots a base [.float x, .float l, .float s, .float x])

/-- Goes on to the next round of a numeric loop, or ends it. -/
def countLoop (a : Activation) (base body : Nat) : Action Unit := do
  let heap ← Action.heap
  match readSlot heap a base, readSlot heap a (base + 1), readSlot heap a (base + 2) with
  | .integer i, .integer rounds, .integer s =>
    if rounds = 0 then setTop a
    else
      let next : Value := .integer (i + s)
      let a := setSlots a base [next, .integer (rounds - 1)]
      setTop { setSlots a (base + 3) [next] with pc := body }
  | .float x, .float l, .float s =>
    let next := x.add s
    if (if Double.zero.lt s then next.le l else l.le next) then
      let a := setSlots a base [.float next]
      setTop { setSlots a (base + 3) [.float next] with pc := body }
    else setTop a
  | _, _, _ => setTop a

/-- Puts values into the list on top, from a position on. -/
def appendItems (a : Activation) (start count : Nat) : Action Unit := do
  let items := (a.stack.take count).reverse
  let stack := a.stack.drop count
  match stack with
  | .table t :: _ =>
    Action.modifyHeap (·.updateTable t fun table =>
      (items.zipIdx start).foldl
        (fun table (v, i) => table.set (.integer (Int64.ofNat i)) v) table)
  | _ => pure ()
  setTop { a with stack, spread := 0 }

/-- Ends the top activation with its results. -/
def leave (results : List Value) : Action Unit :=
  modify fun m => { m with frames := m.frames.tail }.deliver results

/-- Leaves the top activation for a guest function that is called in its place. -/
def tailCall (a : Activation) (f : Value) (args : List Value) (name : Option Origin) :
    Action Unit := do
  let heap ← Action.heap
  let replaces := match callee? heap maxCallees f args with
    | some (f, _) => match heap.function f with
      | .guest .. => true
      | _ => false
    | none => false
  if replaces then
    modify fun m => { m with frames := m.frames.tail }
    call f args none
  else callThen a (.results none) f args name

/-- Carries out an instruction of the top activation, whose position is past it already. -/
def instruction (a : Activation) : Instr → Action Unit
  | .push v => setTop { a with stack := v :: a.stack }
  | .pop => setTop { a with stack := a.stack.tail }
  | .loadSlot i => do pushValue a a.stack (readSlot (← Action.heap) a i)
  | .storeSlot i => storeSlot { a with stack := a.stack.tail } i (a.stack.headD .nil)
  | .bind base count =>
    setTop (setSlots { a with stack := a.stack.drop count } base (a.stack.take count).reverse)
  | .loadCaptured i => do pushValue a a.stack (readCaptured (← Action.heap) a i)
  | .storeCaptured i => do
    setTop { a with stack := a.stack.tail }
    Action.modifyHeap (·.setCell (a.captured.getD i default) (a.stack.headD .nil))
  | .getIndex object key origin => do
    let heap ← Action.heap
    let (key, stack) := operand heap a a.stack key
    let (object, stack) := operand heap a stack object
    finish a stack "__index" (single origin) (heap.index object key)
  | .setIndex object key depth origin => do
    let heap ← Action.heap
    let value := a.stack.headD .nil
    let between := a.stack.tail.take depth
    let (key, stack) := operand heap a (a.stack.tail.drop depth) key
    let (object, stack) := operand heap a stack object
    let a := { a with stack := between ++ stack }
    match heap.assign object key value with
    | .done place =>
      setTop a
      Action.modifyHeap (·.store place value)
    | .call f args => callThen a .nothing f args (some (eventOrigin "__newindex"))
    | .fault fault => failOperation fault (single origin)
  | .getMethod object name origin => do
    let heap ← Action.heap
    let (object, stack) := operand heap a a.stack object
    match heap.index object (.string name) with
    | .done f => setTop { a with stack := object :: f :: stack }
    | .call f args =>
      callThen { a with stack } (.receiver object) f args (some (eventOrigin "__index"))
    | .fault fault => failOperation fault (single origin)
  | .call args spread want name => do
    let count := args + if spread then a.spread else 0
    let values := (a.stack.take count).reverse
    let rest := a.stack.drop count
    let a := { a with stack := rest.tail, spread := 0 }
    let await : Await := match want with
      | some 0 => .nothing
      | want => .results want
    callThen a await (rest.headD .nil) values name
  | .tailCall args spread name => do
    let count := args + if spread then a.spread else 0
    let values := (a.stack.take count).reverse
    let rest := a.stack.drop count
    tailCall { a with stack := rest.tail, spread := 0 } (rest.headD .nil) values name
  | .ret count spread =>
    leave (a.stack.take (count + if spread then a.spread else 0)).reverse
  | .varargs want =>
    match want with
    | none => setTop { a with stack := a.varargs.reverse ++ a.stack, spread := a.varargs.length }
    | some n =>
      let values := a.varargs.take n ++ List.replicate (n - a.varargs.length) .nil
      setTop { a with stack := values.reverse ++ a.stack }
  | .unary op x origin => do
    let heap ← Action.heap
    let (x, stack) := operand heap a a.stack x
    finish a stack (unaryEvent op) (single origin) (heap.unary op x)
  | .binary op x y xOrigin yOrigin => do
    let heap ← Action.heap
    let (y, stack) := operand heap a a.stack y
    let (x, stack) := operand heap a stack x
    binary a stack op x y fun side => match side with
      | .left => xOrigin
      | .right => yOrigin
  | .jump target => setTop { a with pc := target }
  | .jumpUnless target =>
    setTop { a with
      stack := a.stack.tail
      pc := if (a.stack.headD .nil).truthy then a.pc else target }
  | .jumpKeepUnless target =>
    if (a.stack.headD .nil).truthy then setTop { a with stack := a.stack.tail }
    else setTop { a with pc := target }
  | .jumpKeepIf target =>
    if (a.stack.headD .nil).truthy then setTop { a with pc := target }
    else setTop { a with stack := a.stack.tail }
  | .newTable listed => do
    let t ← Action.newTable { Table.empty with listed }
    pushValue a a.stack t
  | .append start count spread => appendItems a start (count + if spread then a.spread else 0)
  | .setField => do
    match a.stack with
    | value :: key :: .table t :: rest =>
      match Heap.rawPlace t key with
      | .done place =>
        setTop { a with stack := .table t :: rest }
        Action.modifyHeap (·.store place value)
      | .call .. => pure ()
      | .fault fault => failOperation fault fun _ => none
    | _ => pure ()
  | .closure index => do
    let proto := a.proto.nested.getD index default
    let (cells, a) ← capture a proto.signature.captures.toList
    let f ← Action.newFunction (.guest proto cells.toArray)
    pushValue a a.stack f
  | .countPrep base exit => countPrep a base exit
  | .countLoop base body => countLoop a base body
  | .eachCall base count => do
    let heap ← Action.heap
    let iterator : Origin := ⟨"for iterator", text "for iterator"⟩
    callThen a (.round base count) (readSlot heap a base)
      [readSlot heap a (base + 1), readSlot heap a (base + 2)] (some iterator)
  | .eachLoop base body => do
    let first := readSlot (← Action.heap) a (base + 4)
    if first == .nil then setTop a
    else setTop { setSlots a (base + 2) [first] with pc := body }

/-- The next instruction of the top frame. -/
def execute : Action Unit := do
  let a ← top
  match a.proto.code[a.pc]? with
  | some i =>
    let a := { a with pc := a.pc + 1 }
    setTop a
    instruction a i
  | none => leave []

def step : Action Unit := do
  match (← get).control with
  | .run => execute
  | .call f args name => call f args name
  | .halt _ => pure ()

/-- Looks at the stop flag when its time has come. -/
def watch : Action Unit := do
  let m ← get
  match m.countdown with
  | none => pure ()
  | some (n + 1) => if n = 0 then look m else set { m with countdown := some n }
  | some 0 => look m
where
  look (m : Machine) : Action Unit := do
    let (stops, stop) := m.host.stop.look m.host.reports.length
    set { m with countdown := some (Coroutine.interval m), host := { m.host with stop } }
    if stops then HostAction.raise .cancelled

end Step

namespace Machine

/-- One step, with errors passed to the frame that catches them; `run` runs nested calls. -/
def advance (run : Machine → Machine) (m : Machine) : Machine :=
  match (do Step.watch; Step.step : Action Unit).run run m with
  | (.ok _, m) => m
  | (.error error, m) => m.unwind error

/-- Runs a machine until it halts, for at most `fuel` steps. -/
def run : (fuel : Nat) → Machine → Machine
  | 0, m => m
  | fuel + 1, m =>
    match m.control with
    | .halt _ => m
    | _ => run fuel (advance (run fuel) m)

/-- More steps than any script takes. -/
def plenty : Nat := 10 ^ 18

def perform {α : Type} (a : Action α) (m : Machine) : Except Value α × Machine :=
  a.run (run plenty) m

end Machine

end Grapnel
