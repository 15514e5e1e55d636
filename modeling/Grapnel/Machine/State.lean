import Grapnel.FileTree.Basic
import Grapnel.Guest.Chunk
import Grapnel.Guest.Operation
import Grapnel.Script.Closures
import Grapnel.Script.Config
import Grapnel.Task.Scheduler
import Grapnel.Workspace.Basic

namespace Grapnel

open Guest

/-- Whether the script that runs is to stop. The machine looks at this from time to time. -/
inductive StopFlag where
  | lowered
  | raised
  /-- Raises itself after some more looks. -/
  | patient (looks : Nat)
  /-- Raised itself when there were so many reports. -/
  | impatient (reports : Nat)
deriving DecidableEq, Inhabited

namespace StopFlag

/-- The flag when a script is handed in: what was asked for before does not concern it. -/
def lower : StopFlag → StopFlag
  | .patient looks => .patient looks
  | _ => .lowered

/-- Whether to stop now, and the flag after a look at it when there were so many reports. -/
def look (reports : Nat) : StopFlag → Bool × StopFlag
  | .lowered => (false, .lowered)
  | .raised => (true, .raised)
  | .patient (looks + 1) => (false, .patient looks)
  | .patient 0 => (true, .impatient reports)
  | .impatient reports => (true, .impatient reports)

end StopFlag

/-- What surrounds a machine and outlives it. -/
structure Host where
  config : EngineConfig
  files : Node
  /-- Nanoseconds since the start. -/
  clock : Nat
  stop : StopFlag
  /-- The output upon which the observer asks for a stop. -/
  stopOn : Option String
  /-- What the observer was told, the latest first. -/
  reports : List Report
deriving Inhabited

namespace Host

def report (h : Host) (r : Report) : Host := { h with reports := r :: h.reports }

def output (h : Host) (text : String) : Host :=
  let h := h.report (.output text)
  if h.stopOn = some text then { h with stop := .raised } else h

end Host

inductive Outcome where
  | finished (results : List Value)
  | yielded (values : List Value)
  | failed (error : Value)
deriving Inhabited

inductive Control where
  | run
  | call (callee : Value) (args : List Value) (name : Option Origin)
  | halt (outcome : Outcome)
deriving Inhabited

/-- The frames are those of the coroutine that runs; those of the others are in the heap. -/
structure Machine where
  heap : Heap
  globals : TableRef
  libraries : List (String × TableRef)
  natives : List (Builtin × FunctionRef)
  thread : ThreadRef
  frames : List Frame
  /-- The depth at which the coroutine was resumed. -/
  baseDepth : Nat
  control : Control
  /-- Steps to the next look at the stop flag; none are counted while it is absent. -/
  countdown : Option Nat
  scheduler : Scheduler ThreadRef FunctionRef Value
  bus : SignalBus FunctionRef
  closures : ClosureRegistry
  workspace : Workspace
  host : Host
deriving Inhabited

abbrev Action := ReaderT (Machine → Machine) (ExceptT Value (StateM Machine))

namespace Machine

def mainThread : ThreadRef := ⟨0⟩

def maxDepth : Nat := 200

/-- The depth at which handling errors of too deep nesting is given up. -/
def fatalDepth : Nat := 220

/-- The space that calls of guest functions may take. -/
def maxUsed : Nat := 1000000

def depth (m : Machine) : Nat := (m.frames.head?.map (·.depth)).getD m.baseDepth

def native (m : Machine) (b : Builtin) : Value :=
  match m.natives.lookup b with
  | some f => .function f
  | none => .nil

def used (m : Machine) : Nat := (m.frames.head?.map (·.used)).getD 0

/-- Whether the coroutine that runs may yield: no native that called back is in between. -/
def isYieldable (m : Machine) : Bool :=
  m.thread ≠ mainThread &&
    m.frames.all fun f => match f.call with
      | .native _ => false
      | _ => true

/-- The position of a frame's current instruction, for a message. -/
def framePosition (f : Frame) : Text :=
  match f.call with
  | .guest a => Chunk.position a.proto.source (a.proto.lineAt (a.pc - 1))
  | _ => .empty

/-- The position of the frame some levels up; the top frame is at level one. -/
def positionAt (m : Machine) (level : Nat) : Text :=
  if level = 0 then .empty
  else match m.frames[level - 1]? with
    | some f => framePosition f
    | none => .empty

/-- Passes results to the frames that wait for them. -/
def deliverTo (results : List Value) : List Frame → List Frame × Control
  | [] => ([], .halt (.finished results))
  | f :: rest =>
    match f.call with
    | .native _ => (f :: rest, .halt (.finished results))
    | .caught _ => deliverTo (.boolean true :: results) rest
    | .guest a =>
      match a.await with
      | .nothing => (f :: rest, .run)
      | .receiver object => withStack f a rest [object, results.headD .nil] 0
      | .truth => withStack f a rest [.boolean (results.headD .nil).truthy] 0
      | .untruth => withStack f a rest [.boolean !(results.headD .nil).truthy] 0
      | .results none => withStack f a rest results.reverse results.length
      | .results (some n) =>
        withStack f a rest
          (List.replicate (n - results.length) .nil ++ (results.take n).reverse) 0
      | .round base count =>
        let values := results.take count ++ List.replicate (count - results.length) .nil
        let slots := (values.zipIdx (base + 4)).foldl
          (fun slots (v, i) => slots.setIfInBounds i (.value v)) a.slots
        ({ f with call := .guest { a with slots } } :: rest, .run)
where
  withStack (f : Frame) (a : Activation) (rest : List Frame) (top : List Value) (spread : Nat) :
      List Frame × Control :=
    ({ f with call := .guest { a with stack := top ++ a.stack, spread } } :: rest, .run)

def deliver (m : Machine) (results : List Value) : Machine :=
  let (frames, control) := deliverTo results m.frames
  { m with frames, control }

/-- Drops frames until one catches the error. -/
def unwindTo (error : Value) : List Frame → List Frame × Control
  | [] => ([], .halt (.failed error))
  | f :: rest =>
    match f.call with
    | .guest _ => unwindTo error rest
    | .caught _ => deliverTo [.boolean false, error] rest
    | .native _ => (f :: rest, .halt (.failed error))

def unwind (m : Machine) (error : Value) : Machine :=
  let (frames, control) := unwindTo error m.frames
  { m with frames, control }

/-- The handler that an error raised in the top frame is given to. -/
def handlerIn : List Frame → Option Value
  | [] => none
  | f :: rest =>
    match f.call with
    | .guest _ => handlerIn rest
    | .caught handler => handler
    | .native true => none
    | .native false => handlerIn rest

end Machine

end Grapnel
