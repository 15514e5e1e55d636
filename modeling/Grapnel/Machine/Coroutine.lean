import Grapnel.Machine.Action

namespace Grapnel

open Guest

namespace Coroutine

def refusal? : ThreadState → Option Text
  | .fresh _ | .suspended _ => none
  | .running | .normal => some (text "cannot resume non-suspended coroutine")
  | .dead _ => some (text "cannot resume dead coroutine")

/-- Whether a coroutine is new or has yielded. -/
def isResumable (heap : Heap) (t : ThreadRef) : Bool := (refusal? (heap.thread t).state).isNone

def setState (t : ThreadRef) (state : ThreadState) : Action Unit :=
  Action.modifyHeap fun h => h.setThread t { h.thread t with state }

/-- Steps between two looks at the stop flag. -/
def interval (m : Machine) : Nat := max m.host.config.instructionInterval 1

def create (f : FunctionRef) : Action ThreadRef := do
  let m ← get
  Action.onHeap (·.newThread ⟨.fresh f, interval m⟩)

/-- The machine with a coroutine started or continued in place of the one that runs. -/
def switchTo (m : Machine) (t : ThreadRef) (args : List Value) : Machine :=
  let thread := m.heap.thread t
  let heap := m.heap.setThread m.thread { m.heap.thread m.thread with state := .normal }
  let m : Machine :=
    { m with
      heap := heap.setThread t { thread with state := .running }
      thread := t
      baseDepth := m.depth + 1
      countdown := m.countdown.map fun _ => thread.countdown }
  match thread.state with
  | .fresh f => { m with frames := [], control := .call (.function f) args none }
  | .suspended frames => { m with frames }.deliver args
  | _ => { m with frames := [], control := .halt (.failed .nil) }

/-- What became of a coroutine that ran, as a state and as an answer. -/
def ended (m : Machine) : ThreadState × Except Value (List Value) :=
  match m.control with
  | .halt (.finished results) => (.dead none, .ok results)
  | .halt (.yielded values) => (.suspended m.frames, .ok values)
  | .halt (.failed error) => (.dead (some error), .error error)
  | _ => (.dead none, .error .nil)

/-- Runs a coroutine until it yields, returns or fails. -/
def resume (t : ThreadRef) (args : List Value) : Action (Except Value (List Value)) := do
  let before ← get
  match refusal? (before.heap.thread t).state with
  | some reason => return .error (.string reason)
  | none =>
    if Machine.maxDepth ≤ before.depth then return .error Action.tooDeep
    let after := (← read) (switchTo before t args)
    let (state, answer) := ended after
    let left := after.countdown.getD (after.heap.thread t).countdown
    let heap := after.heap.setThread t ⟨state, left⟩
    let heap := heap.setThread before.thread { heap.thread before.thread with state := .running }
    set { after with
      heap
      thread := before.thread
      frames := before.frames
      baseDepth := before.baseDepth
      countdown := before.countdown
      control := .run }
    return answer

def statusName (m : Machine) (t : ThreadRef) : String :=
  if t = m.thread then "running"
  else match (m.heap.thread t).state with
    | .fresh _ | .suspended _ => "suspended"
    | .running | .normal => "normal"
    | .dead _ => "dead"

def close (c : NativeCall) : Action (List Value) := do
  let t ← c.thread 1
  let m ← get
  match (m.heap.thread t).state with
  | .running | .normal => Action.failHere ("cannot close a " ++ statusName m t ++ " coroutine")
  | .dead (some error) =>
    setState t (.dead none)
    return [.boolean false, error]
  | _ =>
    setState t (.dead none)
    return [.boolean true]

/-- Resumes the coroutine of a resumer. Its errors are raised again; a text gets a position in
front of it. -/
def callResumer (t : ThreadRef) (args : List Value) : Action (List Value) := do
  match ← resume t args with
  | .ok values => return values
  | .error error =>
    match (← Action.heap).thread t with
    | ⟨.dead _, _⟩ => setState t (.dead none)
    | _ => pure ()
    match error with
    | .string s => Action.failAt 1 s
    | error => Action.fail error

def perform (f : CoroutineFunction) (c : NativeCall) : Action (List Value) := do
  match f with
  | .close => close c
  | .create => return [.thread (← create (← c.function 1))]
  | .isyieldable =>
    let m ← get
    match c.arg 1 with
    | .thread t => return [.boolean (if t = m.thread then m.isYieldable else t ≠ Machine.mainThread)]
    | _ => return [.boolean m.isYieldable]
  | .resume =>
    let t ← c.thread 1
    match ← resume t (c.args.drop 1) with
    | .ok values => return .boolean true :: values
    | .error error => return [.boolean false, error]
  | .running =>
    let m ← get
    return [.thread m.thread, .boolean (m.thread = Machine.mainThread)]
  | .status =>
    let t ← c.thread 1
    return [.ofString (statusName (← get) t)]
  | .wrap => return [← Action.newFunction (.resumer (← create (← c.function 1)))]
  | .yield => return []

end Coroutine

end Grapnel
