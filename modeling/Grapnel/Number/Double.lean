import Grapnel.Instances

namespace Grapnel

/-- A 64-bit floating-point number, held as its bits so that the sign of a NaN is kept. -/
structure Double where
  bits : UInt64
deriving DecidableEq, Inhabited

namespace Double

/-- The NaN that an operation without a meaningful result produces. -/
def invalid : Double := ⟨0xFFF8000000000000⟩

def infinity : Double := ⟨0x7FF0000000000000⟩

def zero : Double := ⟨0⟩

def pi : Double := ⟨0x400921FB54442D18⟩

def signBit (x : Double) : Bool := x.bits &&& 0x8000000000000000 != 0

def exponentBits (x : Double) : Nat := ((x.bits >>> 52) &&& 0x7FF).toNat

/-- The fifty-two bits after the leading one. -/
def fractionBits (x : Double) : Nat := (x.bits &&& 0xFFFFFFFFFFFFF).toNat

def isNaN (x : Double) : Bool := x.exponentBits == 0x7FF && x.fractionBits != 0

def isInfinite (x : Double) : Bool := x.exponentBits == 0x7FF && x.fractionBits == 0

def isFinite (x : Double) : Bool := x.exponentBits != 0x7FF

def toFloat (x : Double) : Float := Float.ofBits x.bits

def ofFloat (x : Float) : Double := if x.isNaN then invalid else ⟨x.toBits⟩

/-- The whole significand of a finite number's magnitude. -/
def significand (x : Double) : Nat :=
  if x.exponentBits = 0 then x.fractionBits else x.fractionBits + 2 ^ 52

/-- The power of two that the significand is counted in. -/
def scale (x : Double) : Int :=
  if x.exponentBits = 0 then -1074 else (x.exponentBits : Int) - 1075

def isZero (x : Double) : Bool := x.significand == 0 && x.isFinite

def neg (x : Double) : Double := ⟨x.bits ^^^ 0x8000000000000000⟩

def abs (x : Double) : Double := ⟨x.bits &&& 0x7FFFFFFFFFFFFFFF⟩

/-- A NaN operand is passed on, the first one before the second. -/
def lift₂ (f : Float → Float → Float) (x y : Double) : Double :=
  if x.isNaN then x else if y.isNaN then y else ofFloat (f x.toFloat y.toFloat)

def lift₁ (f : Float → Float) (x : Double) : Double :=
  if x.isNaN then x else ofFloat (f x.toFloat)

def add : Double → Double → Double := lift₂ (· + ·)
def sub : Double → Double → Double := lift₂ (· - ·)
def mul : Double → Double → Double := lift₂ (· * ·)
def div : Double → Double → Double := lift₂ (· / ·)
def floor : Double → Double := lift₁ Float.floor
def ceil : Double → Double := lift₁ Float.ceil

/-- One to any power and any number to the power zero are one, NaN included. -/
def pow (x y : Double) : Double :=
  if y.isZero || x == ⟨0x3FF0000000000000⟩ then ⟨0x3FF0000000000000⟩
  else lift₂ Float.pow x y

def eq (x y : Double) : Bool := x.toFloat == y.toFloat
def lt (x y : Double) : Bool := x.toFloat < y.toFloat
def le (x y : Double) : Bool := x.toFloat ≤ y.toFloat

/-- The nearest number to `m · 2 ^ e`, ties to the even significand. -/
def ofScaled (negative : Bool) (m : Nat) (e : Int) : Double :=
  let sign : UInt64 := if negative then 0x8000000000000000 else 0
  if m = 0 then ⟨sign⟩
  else
    let length : Int := m.log2 + 1
    let target : Int := max (e + length - 53) (-1074)
    let kept : Nat :=
      if target ≤ e then m <<< (e - target).toNat
      else
        let shift := (target - e).toNat
        let floor := m >>> shift
        let rest := m - floor <<< shift
        let half := 1 <<< (shift - 1)
        if rest > half || (rest = half && floor % 2 = 1) then floor + 1 else floor
    let (kept, target) := if kept = 2 ^ 53 then (2 ^ 52, target + 1) else (kept, target)
    if target > 971 then ⟨sign ||| infinity.bits⟩
    else if kept < 2 ^ 52 then ⟨sign ||| kept.toUInt64⟩
    else ⟨sign ||| ((target + 1075).toNat.toUInt64 <<< 52) ||| (kept - 2 ^ 52).toUInt64⟩

def ofInt (n : Int) : Double := ofScaled (decide (n < 0)) n.natAbs 0

/-- The nearest number to `m · 10 ^ e`, ties to the even significand. -/
def ofDecimal (negative : Bool) (m : Nat) (e : Int) : Double :=
  let digits : Int := m.log2 / 3
  if m = 0 then ofScaled negative 0 0
  else if e + digits / 2 > 700 then ofScaled negative 1 2000
  else if e + digits < -800 then ofScaled negative 0 0
  else if 0 ≤ e then ofScaled negative (m * 10 ^ e.toNat) 0
  else
    let den := 10 ^ (-e).toNat
    let shift : Int := (den.log2 : Int) - m.log2 + 66
    let num := if 0 ≤ shift then m <<< shift.toNat else m
    let shift := if 0 ≤ shift then shift else 0
    let q := num / den
    let sticky := if num % den = 0 then 0 else 1
    ofScaled negative (2 * q + sticky) (-shift - 1)

/-- The remainder of exact division, with the sign of the dividend. -/
def rem (x y : Double) : Double :=
  if x.isNaN then x
  else if y.isNaN then y
  else if x.isInfinite || y.isZero then invalid
  else if y.isInfinite || x.isZero then x
  else
    let e := min x.scale y.scale
    let a := x.significand <<< (x.scale - e).toNat
    let b := y.significand <<< (y.scale - e).toNat
    ofScaled x.signBit (a % b) e

/-- The whole number that a finite number equals, if it is whole. -/
def toInt? (x : Double) : Option Int :=
  if x.isFinite then
    let magnitude? :=
      if 0 ≤ x.scale then some (x.significand <<< x.scale.toNat)
      else
        let down := (-x.scale).toNat
        let whole := x.significand >>> down
        if whole <<< down = x.significand then some whole else none
    magnitude?.map fun m => if x.signBit then -(m : Int) else m
  else none

/-- The whole part toward zero of a finite number. -/
def truncate? (x : Double) : Option Int :=
  if x.isFinite then
    let m := if 0 ≤ x.scale then x.significand <<< x.scale.toNat
      else x.significand >>> (-x.scale).toNat
    some (if x.signBit then -(m : Int) else m)
  else none

/-- The whole number at or below a finite number. -/
def floor? (x : Double) : Option Int := x.floor.toInt?

end Double

end Grapnel
