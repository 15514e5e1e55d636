import Grapnel.Number.Double

namespace Grapnel

/-- A run of decimal digits `0.d₁d₂…` scaled by a power of ten. -/
structure Decimal where
  digits : List Nat
  exponent : Int
deriving DecidableEq, Inhabited

namespace Double

/-- The exact magnitude of a finite number as numerator and denominator. -/
def fraction (x : Double) : Nat × Nat :=
  if 0 ≤ x.scale then (x.significand <<< x.scale.toNat, 1)
  else (x.significand, 1 <<< (-x.scale).toNat)

end Double

namespace Decimal

/-- The decimal digits of a whole number, most significant first. -/
def ofNat (n : Nat) : List Nat := (Nat.toDigits 10 n).map fun c => c.toNat - '0'.toNat

/-- The least `k` with `num / den < 10 ^ k`, found by stepping from an estimate. -/
def magnitude (num den : Nat) : Int :=
  let fits (k : Int) : Bool :=
    if 0 ≤ k then num < den * 10 ^ k.toNat else num * 10 ^ (-k).toNat < den
  let start : Int := ((num.log2 : Int) - den.log2) * 30103 / 100000 - 1
  let rec climb (fuel : Nat) (k : Int) : Int :=
    match fuel with
    | 0 => k
    | fuel + 1 => if fits k then k else climb fuel (k + 1)
  climb 5 start

/-- The fraction counted in units of `10 ^ e`: the whole count and what is left over. -/
def count (num den : Nat) (e : Int) : Nat × Nat × Nat :=
  let (a, b) := if 0 ≤ e then (num, den * 10 ^ e.toNat) else (num * 10 ^ (-e).toNat, den)
  (a / b, a % b, b)

/-- The nearest count of units of `10 ^ e`, ties to even. -/
def roundedCount (num den : Nat) (e : Int) : Nat :=
  let (c, rest, unit) := count num den e
  if 2 * rest > unit || (2 * rest = unit && c % 2 = 1) then c + 1 else c

/-- Exactly `n` significant digits of a positive fraction. -/
def significant (num den n : Nat) : Decimal :=
  let k := magnitude num den
  let c := roundedCount num den (k - n)
  if c = 10 ^ n then ⟨ofNat (10 ^ (n - 1)), k + 1⟩ else ⟨ofNat c, k⟩

/-- Whether `c · 10 ^ e` reads back as the positive finite number `x`. -/
def readsBack (x : Double) (c : Nat) (e : Int) : Bool :=
  let closed := x.significand % 2 = 0
  let nearEdge := x.significand = 2 ^ 52 && x.exponentBits > 1
  let low := if nearEdge then 4 * x.significand - 1 else 4 * x.significand - 2
  let high := 4 * x.significand + 2
  let q := x.scale - 2
  let (c, one) := if 0 ≤ e then (c * 10 ^ e.toNat, 1) else (c, 10 ^ (-e).toNat)
  let (c, one) := if 0 ≤ q then (c, one <<< q.toNat) else (c <<< (-q).toNat, one)
  if closed then low * one ≤ c && c ≤ high * one else low * one < c && c < high * one

/-- The fewest digits that read back as the positive finite number `x`, the nearest of those. -/
def shortest (x : Double) : Decimal :=
  let (num, den) := x.fraction
  let k := magnitude num den
  let rec search (fuel n : Nat) : Decimal :=
    match fuel with
    | 0 => significant num den 17
    | fuel + 1 =>
      let e := k - n
      let (c, rest, unit) := count num den e
      let down := c ≠ 0 && readsBack x c e
      let up := readsBack x (c + 1) e
      let nearestUp := 2 * rest > unit || (2 * rest = unit && c % 2 = 1)
      let choice? : Option Nat :=
        if down && up then some (if nearestUp then c + 1 else c)
        else if down then some c
        else if up then some (c + 1)
        else none
      match choice? with
      | none => search fuel (n + 1)
      | some c => if c = 10 ^ n then ⟨[1], k + 1⟩ else ⟨ofNat c, k⟩
  search 17 1

def trimZeros (digits : List Nat) : List Nat := (digits.reverse.dropWhile (· = 0)).reverse

def text (digits : List Nat) : List Char := digits.map fun d => Char.ofNat ('0'.toNat + d)

/-- Positional notation with all digits, and no exponent. -/
def positional (d : Decimal) : List Char :=
  if d.exponent ≤ 0 then
    '0' :: '.' :: List.replicate (-d.exponent).toNat '0' ++ text d.digits
  else
    let whole := d.exponent.toNat
    let digits := text d.digits
    if digits.length ≤ whole then digits ++ List.replicate (whole - digits.length) '0'
    else digits.take whole ++ '.' :: digits.drop whole

/-- Inserts a point after `whole` characters, keeping the point only if something follows it. -/
def pointed (whole : Nat) (alternate : Bool) (digits : List Char) : List Char :=
  let rest := digits.drop whole
  if rest.isEmpty && !alternate then digits.take whole else digits.take whole ++ '.' :: rest

/-- A signed exponent of at least two digits. -/
def exponentText (e : Int) : List Char :=
  let digits := (Nat.repr e.natAbs).toList
  let digits := if digits.length < 2 then '0' :: digits else digits
  (if e < 0 then '-' else '+') :: digits

end Decimal

namespace Double

/-- The sign and the fewest digits that read back, without an exponent. -/
def plainText (x : Double) : String :=
  if x.isNaN then "NaN"
  else
    let sign := if x.signBit then "-" else ""
    if x.isInfinite then sign ++ "inf"
    else if x.isZero then sign ++ "0"
    else sign ++ String.ofList (Decimal.shortest x).positional

/-- The magnitude with `places` digits after the point. -/
def fixedDigits (x : Double) (places : Nat) (alternate : Bool) : List Char :=
  let (num, den) := x.fraction
  let digits := Decimal.text (Decimal.ofNat (Decimal.roundedCount num den (-places)))
  let digits := List.replicate (places + 1 - digits.length) '0' ++ digits
  Decimal.pointed (digits.length - places) alternate digits

/-- The magnitude as one digit, `places` more after the point and an exponent. -/
def exponentDigits (x : Double) (places : Nat) (alternate : Bool) : List Char :=
  let (num, den) := x.fraction
  let d : Decimal :=
    if num = 0 then ⟨List.replicate (places + 1) 0, 1⟩
    else Decimal.significant num den (places + 1)
  Decimal.pointed 1 alternate (Decimal.text d.digits)
    ++ 'e' :: Decimal.exponentText (d.exponent - 1)

/-- The magnitude with `precision` significant digits: positional for exponents from -4 up to the
precision, zeros at the end dropped unless the alternate form is asked for. -/
def generalDigits (x : Double) (precision : Nat) (alternate : Bool) : List Char :=
  let precision := max precision 1
  let (num, den) := x.fraction
  let d : Decimal :=
    if num = 0 then ⟨List.replicate precision 0, 1⟩ else Decimal.significant num den precision
  let e := d.exponent - 1
  if e < -4 || (precision : Int) ≤ e then
    let digits := if alternate then d.digits else Decimal.trimZeros d.digits
    let digits := if digits.isEmpty then [0] else digits
    Decimal.pointed 1 alternate (Decimal.text digits) ++ 'e' :: Decimal.exponentText e
  else
    let all := List.replicate (-e).toNat 0 ++ d.digits
    let whole := (max e 0).toNat + 1
    let rest := if alternate then all.drop whole else Decimal.trimZeros (all.drop whole)
    Decimal.pointed whole alternate (Decimal.text (all.take whole ++ rest))

/-- The guest language's text of a number: fourteen significant digits, and `.0` after what would
otherwise read as a whole number. -/
def guestText (x : Double) : String :=
  let sign := if x.signBit then "-" else ""
  if x.isNaN then sign ++ "nan"
  else if x.isInfinite then sign ++ "inf"
  else
    let digits := x.generalDigits 14 false
    let digits := if digits.all Char.isDigit then digits ++ ['.', '0'] else digits
    sign ++ String.ofList digits

end Double

end Grapnel
