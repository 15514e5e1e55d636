import Grapnel.Guest.Token

namespace Grapnel.Guest

inductive UnaryOp where
  | negate
  | not
  | length
  | complement
deriving DecidableEq, Inhabited

inductive BinaryOp where
  | add | sub | mul | mod | pow | div | floorDiv
  | bitAnd | bitOr | bitXor | shiftLeft | shiftRight
  | concat
  | eq | ne | lt | le | gt | ge
deriving DecidableEq, Inhabited

/-- Where a captured variable of a function is found when the function is made. -/
structure Capture where
  name : Text
  fromSlot : Bool
  index : Nat
deriving DecidableEq, Inhabited

/-- What a function needs to know besides its statements. `jumps` maps each jump to its label. -/
structure Signature where
  line : Nat
  lastLine : Nat
  params : Nat
  variadic : Bool
  slots : Nat
  captures : Array Capture
  jumps : List (Nat × Nat)
deriving DecidableEq, Inhabited

mutual

inductive Expr where
  | nil
  | boolean (b : Bool)
  | numeral (n : Numeral)
  | string (s : Text)
  | varargs
  | slot (index : Nat) (name : Text)
  | captured (index : Nat) (name : Text)
  /-- A constant variable whose value is known while reading the source. -/
  | constant (name : Text) (value : Expr)
  | index (object key : Expr) (line : Nat)
  | call (callee : Expr) (args : List Expr) (line : Nat)
  | method (object : Expr) (name : Text) (args : List Expr) (selfLine line : Nat)
  | function (body : Body)
  | unary (op : UnaryOp) (operand : Expr) (line : Nat)
  | binary (op : BinaryOp) (left right : Expr) (line : Nat)
  | both (left right : Expr)
  | either (left right : Expr)
  | table (items : List Item)
  | paren (inner : Expr)

inductive Item where
  | positional (value : Expr)
  | keyed (key value : Expr) (line : Nat)

inductive Body where
  | mk (signature : Signature) (block : List Stat)

inductive Stat where
  | locals (base count : Nat) (values : List Expr) (line : Nat)
  | assign (targets : List Expr) (values : List Expr) (line : Nat)
  | expression (call : Expr)
  | block (body : List Stat)
  | whileLoop (condition : Expr) (body : List Stat) (exit : Nat) (line : Nat)
  | repeatLoop (body : List Stat) (condition : Expr) (exit : Nat) (line : Nat)
  | cond (condition : Expr) (body otherwise : List Stat) (line : Nat)
  | countFor (base : Nat) (start limit step : Expr) (body : List Stat) (exit prepLine line : Nat)
  | eachFor (base count : Nat) (values : List Expr) (body : List Stat) (exit prepLine line : Nat)
  | localFunction (slot : Nat) (body : Body) (line : Nat)
  | ret (values : List Expr) (line : Nat)
  | jump (id : Nat) (line : Nat)
  | label (id : Nat)

end

instance : Inhabited Expr := ⟨.nil⟩
instance : Inhabited Stat := ⟨.block []⟩
instance : Inhabited Body := ⟨.mk default []⟩

namespace Expr

/-- Sets the line of an access that is still pending when its value is asked for. -/
def settle (line : Nat) : Expr → Expr
  | .index object key 0 => .index object key line
  | e => e

/-- Whether the expression may stand for any number of values. -/
def isOpen : Expr → Bool
  | .call .. | .method .. | .varargs => true
  | _ => false

def isCall : Expr → Bool
  | .call .. | .method .. => true
  | _ => false

/-- The literal that an expression without variables stands for. -/
def literal? : Expr → Option Expr
  | .nil => some .nil
  | .boolean b => some (.boolean b)
  | .numeral n => some (.numeral n)
  | .string s => some (.string s)
  | .constant _ value => some value
  | .unary .negate (.numeral (.integer n)) _ => some (.numeral (.integer (-n)))
  | .unary .negate (.numeral (.float x)) _ => some (.numeral (.float x.neg))
  | _ => none

end Expr

end Grapnel.Guest
