import Grapnel.Guest.Heap

namespace Grapnel.Guest

inductive Side where
  | left
  | right
deriving DecidableEq, Inhabited

/-- Why an operation failed, and on which operand. -/
inductive OperationFault where
  | typed (verb : String) (type : Text) (side : Option Side)
  | notWhole (side : Side)
  | plain (message : Text)
deriving Inhabited

inductive Attempt (α : Type) where
  | done (a : α)
  | call (f : Value) (args : List Value)
  | fault (f : OperationFault)
deriving Inhabited

namespace Numeral

def toDouble : Numeral → Double
  | .integer n => Double.ofInt n.toInt
  | .float x => x

/-- The order of two numbers by their exact values; NaN has none. -/
def compare? : Numeral → Numeral → Option Ordering
  | .integer a, .integer b => some (compare a.toInt b.toInt)
  | .float x, .float y =>
    if x.lt y then some .lt else if y.lt x then some .gt else if x.eq y then some .eq else none
  | .integer a, .float y => withDouble a.toInt y
  | .float x, .integer b => (withDouble b.toInt x).map Ordering.swap
where
  withDouble (a : Int) (y : Double) : Option Ordering :=
    match y.floor? with
    | some n =>
      if a < n then some .lt
      else if n < a then some .gt
      else if y.toInt? = some n then some .eq
      else some .lt
    | none =>
      if y.isNaN then none else some (if y.signBit then .gt else .lt)

def text : Numeral → Text
  | .integer n => Guest.text (toString n.toInt)
  | .float x => Guest.text x.guestText

end Numeral

namespace Value

def numeral? : Value → Option Numeral
  | .integer n => some (.integer n)
  | .float x => some (.float x)
  | _ => none

/-- The number that a value is or, as a text, reads as. -/
def coerced? : Value → Option Numeral
  | .string s => Numeral.read? s.toList
  | v => v.numeral?

/-- The whole number that a number equals. -/
def whole? : Value → Option Int64
  | .integer n => some n
  | .float x => x.toInteger?
  | _ => none

def text? : Value → Option Text
  | .string s => some s
  | v => v.numeral?.map Numeral.text

/-- Equality without metatables: numbers by value, objects by identity. -/
def rawEq : Value → Value → Bool
  | .float x, .float y => x.eq y
  | .integer a, .float y => Numeral.compare? (.integer a) (.float y) == some .eq
  | .float x, .integer b => Numeral.compare? (.float x) (.integer b) == some .eq
  | a, b => a == b

end Value

def textLt (a b : Text) : Bool := a.toList < b.toList

namespace BinaryOp

/-- The metatable's name for the operation. -/
def event : BinaryOp → String
  | .add => "__add"
  | .sub => "__sub"
  | .mul => "__mul"
  | .mod => "__mod"
  | .pow => "__pow"
  | .div => "__div"
  | .floorDiv => "__idiv"
  | .bitAnd => "__band"
  | .bitOr => "__bor"
  | .bitXor => "__bxor"
  | .shiftLeft => "__shl"
  | .shiftRight => "__shr"
  | .concat => "__concat"
  | .eq | .ne => "__eq"
  | .lt | .gt => "__lt"
  | .le | .ge => "__le"

def isBitwise : BinaryOp → Bool
  | .bitAnd | .bitOr | .bitXor | .shiftLeft | .shiftRight => true
  | _ => false

end BinaryOp

namespace Arithmetic

/-- Shifts the bits of a word; what leaves it is lost, and a negative count shifts the other way. -/
def shift (n count : Int64) : Int64 :=
  let c := count.toInt
  if c ≤ -64 ∨ 64 ≤ c then 0
  else if 0 ≤ c then (n.toUInt64 <<< UInt64.ofNat c.toNat).toInt64
  else (n.toUInt64 >>> UInt64.ofNat (-c).toNat).toInt64

def zeroDivision : Text := text "attempt to divide by zero"

def zeroRemainder : Text := text "attempt to perform 'n%0'"

/-- Operations on whole numbers, which wrap; the ones not listed work on floats. -/
def onIntegers (op : BinaryOp) (a b : Int64) : Option (Except Text Int64) :=
  match op with
  | .add => some (.ok (a + b))
  | .sub => some (.ok (a - b))
  | .mul => some (.ok (a * b))
  | .floorDiv =>
    some (if b = 0 then .error zeroDivision else .ok (Int64.ofInt (Int.fdiv a.toInt b.toInt)))
  | .mod =>
    some (if b = 0 then .error zeroRemainder else .ok (Int64.ofInt (Int.fmod a.toInt b.toInt)))
  | .bitAnd => some (.ok (a &&& b))
  | .bitOr => some (.ok (a ||| b))
  | .bitXor => some (.ok (a ^^^ b))
  | .shiftLeft => some (.ok (shift a b))
  | .shiftRight => some (.ok (shift a (-b)))
  | _ => none

/-- The remainder takes the sign of the divisor. -/
def floatMod (x y : Double) : Double :=
  let r := x.rem y
  if r.isZero || r.isNaN || r.signBit == y.signBit then r else r.add y

def onDoubles (op : BinaryOp) (x y : Double) : Double :=
  match op with
  | .sub => x.sub y
  | .mul => x.mul y
  | .div => x.div y
  | .pow => if y == ⟨0x4000000000000000⟩ then x.mul x else x.pow y
  | .floorDiv => (x.div y).floor
  | .mod => floatMod x y
  | _ => x.add y

def onNumerals (op : BinaryOp) (a b : Numeral) : Except Text Value :=
  match a, b with
  | .integer m, .integer n =>
    match onIntegers op m n with
    | some (.ok r) => .ok (.integer r)
    | some (.error e) => .error e
    | none => .ok (.float (onDoubles op a.toDouble b.toDouble))
  | a, b => .ok (.float (onDoubles op a.toDouble b.toDouble))

def negate : Numeral → Value
  | .integer n => .integer (-n)
  | .float x => .float x.neg

end Arithmetic

namespace Heap

variable (h : Heap)

/-- What the metatable of the first operand, or else of the second, holds for an event. -/
def eventOf (a b : Value) (name : String) : Value :=
  match h.event a name with
  | .nil => h.event b name
  | f => f

/-- Calls the function of an event, or fails. -/
def orEvent {α : Type} (a b : Value) (name : String) (fault : OperationFault) : Attempt α :=
  match h.eventOf a b name with
  | .nil => .fault fault
  | f => .call f [a, b]

/-- A wrong operand for arithmetic: the first one that is no number. -/
def wrongOperand (verb : String) (a b : Value) : OperationFault :=
  if a.isNumber then .typed verb (h.typeName b) (some .right)
  else .typed verb (h.typeName a) (some .left)

def arithmetic (op : BinaryOp) (a b : Value) : Attempt Value :=
  match a.numeral?, b.numeral? with
  | some m, some n =>
    match Arithmetic.onNumerals op m n with
    | .ok v => .done v
    | .error e => .fault (.plain e)
  | _, _ => h.orEvent a b op.event (h.wrongOperand "perform arithmetic on" a b)

def bitwise (op : BinaryOp) (a b : Value) : Attempt Value :=
  match a.whole?, b.whole? with
  | some m, some n =>
    match Arithmetic.onIntegers op m n with
    | some (.ok r) => .done (.integer r)
    | _ => .done .nil
  | _, _ =>
    h.orEvent a b op.event
      (if a.isNumber && b.isNumber then .notWhole (if a.whole?.isNone then .left else .right)
      else h.wrongOperand "perform bitwise operation on" a b)

def concat (a b : Value) : Attempt Value :=
  match a.text?, b.text? with
  | some s, some t => .done (.string (s ++ t))
  | _, _ =>
    h.orEvent a b "__concat"
      (if a.text?.isSome then .typed "concatenate" (h.typeName b) (some .right)
      else .typed "concatenate" (h.typeName a) (some .left))

/-- Whether two values may have an equality of their own. -/
def haveEquality : Value → Value → Bool
  | .table s, .table t => s ≠ t
  | .userdata s, .userdata t => s ≠ t
  | _, _ => false

def equal (a b : Value) : Attempt Bool :=
  if a.rawEq b then .done true
  else if haveEquality a b then
    match h.eventOf a b "__eq" with
    | .nil => .done false
    | f => .call f [a, b]
  else .done false

def orderFault (a b : Value) : OperationFault :=
  let s := h.typeName a
  let t := h.typeName b
  .plain (if s == t then text "attempt to compare two " ++ s ++ text " values"
    else text "attempt to compare " ++ s ++ text " with " ++ t)

/-- Whether the first value is below the second or, unless `isStrict`, equal to it. -/
def ordered (isStrict : Bool) (a b : Value) : Attempt Bool :=
  match a, b with
  | .string s, .string t => .done (if isStrict then textLt s t else !textLt t s)
  | a, b =>
    match a.numeral?, b.numeral? with
    | some m, some n =>
      .done (match Numeral.compare? m n with
        | some .lt => true
        | some .eq => !isStrict
        | _ => false)
    | _, _ => h.orEvent a b (if isStrict then "__lt" else "__le") (h.orderFault a b)

/-- The length of a text or of a table without a length of its own. -/
def length (a : Value) : Attempt Value :=
  match a with
  | .string s => .done (Value.ofNat s.size)
  | a =>
    match h.event a "__len" with
    | .nil =>
      match a with
      | .table t => .done (Value.ofNat (h.table t).border)
      | a => .fault (.typed "get length of" (h.typeName a) (some .left))
    | f => .call f [a, a]

def unary (op : UnaryOp) (a : Value) : Attempt Value :=
  match op with
  | .not => .done (.boolean !a.truthy)
  | .length => h.length a
  | .negate =>
    match a.numeral? with
    | some n => .done (Arithmetic.negate n)
    | none =>
      h.orEvent a a "__unm" (.typed "perform arithmetic on" (h.typeName a) (some .left))
  | .complement =>
    match a.whole? with
    | some n => .done (.integer (~~~n))
    | none =>
      h.orEvent a a "__bnot"
        (if a.isNumber then .notWhole .left
        else .typed "perform bitwise operation on" (h.typeName a) (some .left))

def chainFault (name : String) : OperationFault :=
  .plain (text ("'" ++ name ++ "' chain too long; possibly a loop"))

/-- Reads a field, following at most `fuel` metatables. -/
def indexFrom : (fuel : Nat) → (isFirst : Bool) → Value → Value → Attempt Value
  | 0, _, _, _ => .fault (chainFault "__index")
  | fuel + 1, isFirst, object, key =>
    let absent (else' : Attempt Value) : Attempt Value :=
      match h.event object "__index" with
      | .nil => else'
      | .function f => .call (.function f) [object, key]
      | next => indexFrom fuel false next key
    match object with
    | .table t =>
      match (h.table t).getValue key with
      | .nil => absent (.done .nil)
      | v => .done v
    | object =>
      absent (.fault (.typed "index" (h.typeName object) (if isFirst then some .left else none)))

def maxChain : Nat := 2000

def index (object key : Value) : Attempt Value := h.indexFrom maxChain true object key

structure Place where
  table : TableRef
  key : Key
deriving Inhabited

def store (h : Heap) (p : Place) (value : Value) : Heap :=
  h.updateTable p.table (·.set p.key value)

/-- The place that a key denotes, whatever the metatable says. -/
def rawPlace (t : TableRef) (key : Value) : Attempt Place :=
  match Key.ofValue? key with
  | some k => .done ⟨t, k⟩
  | none => .fault (.plain (text (if key = .nil then "table index is nil" else "table index is NaN")))

/-- Where a value is to be stored, following at most `fuel` metatables. -/
def assignFrom : (fuel : Nat) → (isFirst : Bool) → Value → Value → Value → Attempt Place
  | 0, _, _, _, _ => .fault (chainFault "__newindex")
  | fuel + 1, isFirst, object, key, value =>
    let absent (else' : Attempt Place) : Attempt Place :=
      match h.event object "__newindex" with
      | .nil => else'
      | .function f => .call (.function f) [object, key, value]
      | next => assignFrom fuel false next key value
    match object with
    | .table t =>
      match (h.table t).getValue key with
      | .nil => absent (rawPlace t key)
      | _ => rawPlace t key
    | object =>
      absent (.fault (.typed "index" (h.typeName object) (if isFirst then some .left else none)))

def assign (object key value : Value) : Attempt Place :=
  h.assignFrom maxChain true object key value

end Heap

end Grapnel.Guest
