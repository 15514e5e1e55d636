import Grapnel.Guest.Tree
import Grapnel.Guest.Value

namespace Grapnel.Guest

/-- How a message may call the value that an operation failed on: `local 'x'`, `field 'y'`. -/
structure Origin where
  kind : String
  name : Text
deriving DecidableEq, Inhabited

/-- Where an operation finds an operand when it runs. -/
inductive Operand where
  | stack
  | slot (i : Nat)
  | captured (i : Nat)
  | fixed (v : Value)
deriving DecidableEq, Inhabited

inductive Instr where
  | push (v : Value)
  | pop
  | loadSlot (i : Nat)
  | storeSlot (i : Nat)
  /-- Starts the life of `count` new variables from the values on top. -/
  | bind (base count : Nat)
  | loadCaptured (i : Nat)
  | storeCaptured (i : Nat)
  | getIndex (object key : Operand) (origin : Option Origin)
  /-- Stores the value on top; operands on the stack lie under `depth` more values. -/
  | setIndex (object key : Operand) (depth : Nat) (origin : Option Origin)
  /-- Leaves an object's method and the object. -/
  | getMethod (object : Operand) (name : Text) (origin : Option Origin)
  /-- With `spread`, the values that the last open expression left are arguments too; `want` is
  the count of results to keep, all of them if absent. -/
  | call (args : Nat) (spread : Bool) (want : Option Nat) (callee : Option Origin)
  | tailCall (args : Nat) (spread : Bool) (callee : Option Origin)
  | ret (count : Nat) (spread : Bool)
  | varargs (want : Option Nat)
  | unary (op : UnaryOp) (operand : Operand) (origin : Option Origin)
  | binary (op : BinaryOp) (left right : Operand) (leftOrigin rightOrigin : Option Origin)
  | jump (target : Nat)
  | jumpUnless (target : Nat)
  /-- Jumps with the value kept if it is false or nil, else drops it. -/
  | jumpKeepUnless (target : Nat)
  | jumpKeepIf (target : Nat)
  | newTable (listed : Nat)
  /-- Moves list items from the stack into the table below them, from position `start`. -/
  | append (start count : Nat) (spread : Bool)
  | setField
  /-- Makes the function whose code is nested at `index`. -/
  | closure (index : Nat)
  | countPrep (base exit : Nat)
  | countLoop (base body : Nat)
  | eachCall (base count : Nat)
  | eachLoop (base body : Nat)
deriving DecidableEq, Inhabited

/-- The code of a function; `nested` holds the functions written inside it. -/
structure Proto where
  source : Text
  signature : Signature
  code : Array Instr
  lines : Array Nat
  nested : Array Proto
deriving Inhabited

namespace Proto

/-- The line of the instruction at a position. -/
def lineAt (p : Proto) (pc : Nat) : Nat := p.lines.getD pc 0

end Proto

end Grapnel.Guest
