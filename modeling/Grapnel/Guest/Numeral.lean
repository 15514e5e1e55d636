import Grapnel.Number.Decimal

namespace Grapnel.Guest

/-- A whole number or a floating-point number. -/
inductive Numeral where
  | integer (n : Int64)
  | float (x : Double)
deriving DecidableEq, Inhabited

/-- Blank, tab, line feed, vertical tab, form feed and carriage return. -/
def isBlankByte (b : UInt8) : Bool := b == 32 || (9 ≤ b && b ≤ 13)

def isDigitByte (b : UInt8) : Bool := 48 ≤ b && b ≤ 57

def isUpperByte (b : UInt8) : Bool := 65 ≤ b && b ≤ 90

def isLowerByte (b : UInt8) : Bool := 97 ≤ b && b ≤ 122

def isNameStart (b : UInt8) : Bool := isUpperByte b || isLowerByte b || b == 95

def isNameByte (b : UInt8) : Bool := isNameStart b || isDigitByte b

/-- The value of a digit in bases up to thirty-six. -/
def digitValue? (b : UInt8) : Option Nat :=
  if isDigitByte b then some (b.toNat - 48)
  else if isLowerByte b then some (b.toNat - 87)
  else if isUpperByte b then some (b.toNat - 55)
  else none

def hexValue? (b : UInt8) : Option Nat := (digitValue? b).filter (· < 16)

def isHexByte (b : UInt8) : Bool := (hexValue? b).isSome

namespace Numeral

def dropBlanks (s : List UInt8) : List UInt8 := s.dropWhile isBlankByte

def sign : List UInt8 → Bool × List UInt8
  | 45 :: rest => (true, rest)
  | 43 :: rest => (false, rest)
  | s => (false, s)

/-- The digits at the front in a base, with their value and count. -/
def digits (base : Nat) : List UInt8 → Nat → Nat → Nat × Nat × List UInt8
  | [], value, count => (value, count, [])
  | b :: rest, value, count =>
    match (digitValue? b).filter (· < base) with
    | some d => digits base rest (value * base + d) (count + 1)
    | none => (value, count, b :: rest)

/-- A whole number: hexadecimal ones wrap, decimal ones have to fit. -/
def integer? (s : List UInt8) : Option Int64 :=
  let (negative, s) := sign (dropBlanks s)
  let (value?, rest) : Option Nat × List UInt8 :=
    match s with
    | 48 :: x :: rest =>
      if x == 120 || x == 88 then
        let (value, count, rest) := digits 16 rest 0 0
        (if count = 0 then none else some value, rest)
      else
        let (value, _, rest) := digits 10 s 0 0
        (if value < 2 ^ 63 + (if negative then 1 else 0) then some value else none, rest)
    | _ =>
      let (value, count, rest) := digits 10 s 0 0
      (if count ≠ 0 && value < 2 ^ 63 + (if negative then 1 else 0) then some value else none, rest)
  match value? with
  | some value =>
    if (dropBlanks rest).isEmpty then
      some (Int64.ofInt (if negative then -(value : Int) else value))
    else none
  | none => none

/-- An exponent after its mark: an optional sign and at least one digit. -/
def exponent? (s : List UInt8) : Option (Int × List UInt8) :=
  let (negative, s) := sign s
  let (value, count, rest) := digits 10 s 0 0
  if count = 0 then none else some (if negative then -(value : Int) else value, rest)

/-- A floating-point number in decimal or hexadecimal notation. -/
def float? (s : List UInt8) : Option Double :=
  let (negative, s) := sign (dropBlanks s)
  let (base, marks, s) : Nat × List UInt8 × List UInt8 :=
    match s with
    | 48 :: x :: rest => if x == 120 || x == 88 then (16, [112, 80], rest) else (10, [101, 69], s)
    | _ => (10, [101, 69], s)
  let (whole, count, rest) := digits base s 0 0
  let (value, places, count, rest) : Nat × Nat × Nat × List UInt8 :=
    match rest with
    | 46 :: rest' =>
      let (value, total, rest'') := digits base rest' whole count
      if total = 0 then (whole, 0, 0, rest) else (value, total - count, total, rest'')
    | _ => (whole, 0, count, rest)
  if count = 0 then none
  else
    let (e, rest) : Int × List UInt8 :=
      match rest with
      | mark :: rest' =>
        if marks.contains mark then
          match exponent? rest' with
          | some (e, rest'') => (e, rest'')
          | none => (0, rest)
        else (0, rest)
      | [] => (0, rest)
    if (dropBlanks rest).isEmpty then
      let e := max (-100000000) (min e 100000000)
      some (if base = 16 then Double.ofScaled negative value (e - 4 * places)
        else Double.ofDecimal negative value (e - places))
    else none

/-- The number that a text denotes, a whole number if it can be one. -/
def read? (s : List UInt8) : Option Numeral :=
  match integer? s with
  | some n => some (.integer n)
  | none => (float? s).map .float

end Numeral

end Grapnel.Guest
