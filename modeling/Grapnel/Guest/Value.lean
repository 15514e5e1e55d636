import Grapnel.Guest.Token
import Std.Data.TreeMap

namespace Grapnel

/-- The whole number that a float equals, if it fits into a word. -/
def Double.toInteger? (x : Double) : Option Int64 :=
  match x.toInt? with
  | some n => if -(2 ^ 63) ≤ n ∧ n < 2 ^ 63 then some (Int64.ofInt n) else none
  | none => none

namespace Guest

structure TableRef where
  index : Nat
deriving DecidableEq, Inhabited

structure FunctionRef where
  index : Nat
deriving DecidableEq, Inhabited

structure ThreadRef where
  index : Nat
deriving DecidableEq, Inhabited

structure UserdataRef where
  index : Nat
deriving DecidableEq, Inhabited

structure CellRef where
  index : Nat
deriving DecidableEq, Inhabited

inductive Value where
  | nil
  | boolean (b : Bool)
  | integer (n : Int64)
  | float (x : Double)
  | string (s : Text)
  | table (t : TableRef)
  | function (f : FunctionRef)
  | thread (t : ThreadRef)
  | userdata (u : UserdataRef)
deriving DecidableEq, Inhabited

namespace Value

def ofNumeral : Numeral → Value
  | .integer n => .integer n
  | .float x => .float x

def ofString (s : String) : Value := .string (text s)

def ofNat (n : Nat) : Value := .integer (Int64.ofNat n)

def truthy : Value → Bool
  | .nil | .boolean false => false
  | _ => true

def typeName : Value → String
  | .nil => "nil"
  | .boolean _ => "boolean"
  | .integer _ | .float _ => "number"
  | .string _ => "string"
  | .table _ => "table"
  | .function _ => "function"
  | .thread _ => "thread"
  | .userdata _ => "userdata"

def isNumber : Value → Bool
  | .integer _ | .float _ => true
  | _ => false

end Value

/-- What a table entry is found by. Floats that equal a whole number are kept as that number. -/
inductive Key where
  | boolean (b : Bool)
  | integer (n : Int64)
  | float (bits : UInt64)
  | string (s : Text)
  | table (t : TableRef)
  | function (f : FunctionRef)
  | thread (t : ThreadRef)
  | userdata (u : UserdataRef)
deriving DecidableEq, Inhabited

namespace Key

/-- The key that a value denotes; nil and NaN denote none. -/
def ofValue? : Value → Option Key
  | .nil => none
  | .boolean b => some (.boolean b)
  | .integer n => some (.integer n)
  | .float x =>
    if x.isNaN then none
    else match x.toInteger? with
      | some n => some (.integer n)
      | none => some (.float x.bits)
  | .string s => some (.string s)
  | .table t => some (.table t)
  | .function f => some (.function f)
  | .thread t => some (.thread t)
  | .userdata u => some (.userdata u)

def toValue : Key → Value
  | .boolean b => .boolean b
  | .integer n => .integer n
  | .float bits => .float ⟨bits⟩
  | .string s => .string s
  | .table t => .table t
  | .function f => .function f
  | .thread t => .thread t
  | .userdata u => .userdata u

def kind : Key → Nat
  | .boolean _ => 0
  | .integer _ => 1
  | .float _ => 2
  | .string _ => 3
  | .table _ => 4
  | .function _ => 5
  | .thread _ => 6
  | .userdata _ => 7

def number : Key → Int
  | .boolean b => b.toNat
  | .integer n => n.toInt
  | .float bits => bits.toNat
  | .string _ => 0
  | .table t => t.index
  | .function f => f.index
  | .thread t => t.index
  | .userdata u => u.index

def bytes : Key → List UInt8
  | .string s => s.data.toList
  | _ => []

/-- The order in which a table lists its keys. -/
def order : Key → Key → Ordering :=
  compareLex (compareOn kind) (compareLex (compareOn number) (compareOn bytes))

end Key

/-- A table: an entry holding nil is an absent one. `listed` is the length of the list that the
table was made with. -/
structure Table where
  entries : Std.TreeMap Key Value Key.order
  metatable : Option TableRef
  listed : Nat
deriving Inhabited

namespace Table

def empty : Table := ⟨∅, none, 0⟩

def get (t : Table) (k : Key) : Value := t.entries.getD k .nil

def set (t : Table) (k : Key) (v : Value) : Table := { t with entries := t.entries.insert k v }

/-- Reads by any value; what denotes no key is absent. -/
def getValue (t : Table) (v : Value) : Value :=
  match Key.ofValue? v with
  | some k => t.get k
  | none => .nil

def getNat (t : Table) (n : Nat) : Value := t.get (.integer (Int64.ofNat n))

def getString (t : Table) (s : String) : Value := t.get (.string (text s))

def present (t : Table) : List (Key × Value) := t.entries.toList.filter fun e => e.2 ≠ .nil

/-- Halves the range between a present and an absent position. -/
def borderBetween (t : Table) : (fuel : Nat) → (low high : Nat) → Nat
  | 0, low, _ => low
  | fuel + 1, low, high =>
    if high ≤ low + 1 then low
    else
      let middle := (low + high) / 2
      if t.getNat middle == .nil then borderBetween t fuel low middle
      else borderBetween t fuel middle high

/-- Doubles a position until it is absent. -/
def borderFrom (t : Table) : (fuel : Nat) → (low high : Nat) → Nat
  | 0, low, _ => low
  | fuel + 1, low, high =>
    if t.getNat high == .nil then borderBetween t 64 low high
    else borderFrom t fuel high (2 * high)

/-- A position that is present, or zero, with the next one absent. -/
def border (t : Table) : Nat :=
  let n := t.listed
  if n ≠ 0 && t.getNat n == .nil then
    if 2 ≤ n && t.getNat (n - 1) != .nil then n - 1 else borderBetween t 64 0 n
  else if t.getNat (n + 1) == .nil then n
  else borderFrom t 64 (max n 1) (2 * max n 1)

/-- The entry after a key in the table's own order; `none` starts from the beginning. -/
def next? (t : Table) (k : Option Key) : Option (Option (Key × Value)) :=
  match k with
  | none => some (t.present.head?)
  | some k =>
    match t.entries.toList.dropWhile (fun e => e.1 ≠ k) with
    | [] => none
    | _ :: rest => some (rest.find? fun e => e.2 ≠ .nil)

end Table

end Guest

end Grapnel
