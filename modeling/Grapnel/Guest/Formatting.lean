import Grapnel.Guest.Value

namespace Grapnel.Guest

/-- A directive without its percent sign; `shape` is what stands before its letter. -/
structure Directive where
  shape : List UInt8
  flags : List UInt8
  width : Nat
  precision : Option Nat
  letter : UInt8
deriving Inhabited

namespace Directive

def maxShape : Nat := 20

/-- The bytes that may stand before a directive's letter. -/
def isShapeByte (b : UInt8) : Bool := (text "-+ #0123456789.").toList.contains b

def isFlag (b : UInt8) : Bool := (text "-+ #0").toList.contains b

def number (s : List UInt8) : Nat := s.foldl (fun n b => 10 * n + (b.toNat - 48)) 0

/-- Reads a directive and what follows it. Without a letter the letter is NUL. -/
def read? (s : List UInt8) : Option (Directive × List UInt8) :=
  let shape := s.takeWhile isShapeByte
  if maxShape < shape.length then none
  else
    let flags := shape.takeWhile isFlag
    let rest := shape.drop flags.length
    let width := rest.takeWhile isDigitByte
    let precision := match rest.drop width.length with
      | 46 :: rest => some (number (rest.takeWhile isDigitByte))
      | _ => none
    let after := s.drop shape.length
    some (⟨shape, flags, number width, precision, after.headD 0⟩, after.tail)

variable (d : Directive)

def written : Text := text "%" ++ ⟨(d.shape ++ (if d.letter = 0 then [] else [d.letter])).toArray⟩

/-- Whether a directive keeps to a form: only the given flags, at most two digits of width and,
where one is allowed, of precision. -/
def keeps (flags : String) (precise : Bool) : Bool :=
  let rest := d.shape.dropWhile (text flags).toList.contains
  let digits (s : List UInt8) : List UInt8 := s.drop (min 2 (s.takeWhile isDigitByte).length)
  let rest :=
    if rest.head? = some 48 then rest
    else
      match digits rest with
      | 46 :: rest => if precise then digits rest else 46 :: rest
      | rest => rest
  rest.isEmpty

def has (flag : Char) : Bool := d.flags.contains flag.toNat.toUInt8

/-- Fills up to the width: after the text, or before it, or with zeros between sign and digits. -/
def pad (zeros : Bool) (sign digits : List Char) : Text :=
  let missing := d.width - (sign.length + digits.length)
  text (String.ofList (
    if d.has '-' then sign ++ digits ++ List.replicate missing ' '
    else if zeros then sign ++ List.replicate missing '0' ++ digits
    else List.replicate missing ' ' ++ sign ++ digits))

def signOf (negative : Bool) : List Char :=
  if negative then ['-'] else if d.has '+' then ['+'] else if d.has ' ' then [' '] else []

/-- Digits with zeros in front up to the precision; zero with precision zero has none. -/
def precise (digits : List Char) (isZero : Bool) : List Char :=
  match d.precision with
  | none => digits
  | some 0 => if isZero then [] else digits
  | some p => List.replicate (p - digits.length) '0' ++ digits

/-- A whole number in the base that the letter asks for; all but decimal ones are unsigned. -/
def integer (n : Int64) : Text :=
  let zeros := d.has '0' && d.precision.isNone
  if d.letter == 100 || d.letter == 105 then
    d.pad zeros (d.signOf (n < 0)) (d.precise (Nat.toDigits 10 n.toInt.natAbs) (n == 0))
  else
    let m := n.toUInt64.toNat
    let base := if d.letter == 111 then 8 else if d.letter == 117 then 10 else 16
    let digits := Nat.toDigits base m
    let digits := if d.letter == 88 then digits.map Char.toUpper else digits
    let mark : List Char :=
      if !d.has '#' || m = 0 then []
      else if d.letter == 120 then ['0', 'x'] else if d.letter == 88 then ['0', 'X'] else []
    let digits := d.precise digits (m = 0)
    let digits := if d.letter == 111 && d.has '#' && digits.head? ≠ some '0' then '0' :: digits else digits
    d.pad zeros mark digits

/-- Hexadecimal notation of a magnitude, with the fewest digits. -/
def hexadecimal (x : Double) : List Char :=
  if x.isZero then "0x0p+0".toList
  else
    let fraction := Nat.toDigits 16 (x.fractionBits + 2 ^ 52)
    let fraction := ((fraction.drop 1).reverse.dropWhile (· = '0')).reverse
    let lead := if x.exponentBits = 0 then '0' else '1'
    let e : Int := if x.exponentBits = 0 then -1022 else (x.exponentBits : Int) - 1023
    let point := if fraction.isEmpty then [] else '.' :: fraction
    '0' :: 'x' :: lead :: point ++ 'p' :: (if e < 0 then '-' else '+') :: Nat.toDigits 10 e.natAbs

/-- A float in the notation that the letter asks for. -/
def double (x : Double) : Text :=
  let upper (s : List Char) : List Char :=
    if isUpperByte d.letter then s.map Char.toUpper else s
  let lower := if isUpperByte d.letter then d.letter + 32 else d.letter
  let sign := d.signOf x.signBit
  if x.isNaN then d.pad false sign (upper "nan".toList)
  else if x.isInfinite then d.pad false sign (upper "inf".toList)
  else
    let places := d.precision.getD 6
    let digits :=
      if lower == 102 then x.fixedDigits places (d.has '#')
      else if lower == 101 then x.exponentDigits places (d.has '#')
      else if lower == 97 then hexadecimal x
      else x.generalDigits places (d.has '#')
    if lower == 97 then d.pad (d.has '0') (sign ++ upper (digits.take 2)) (upper (digits.drop 2))
    else d.pad (d.has '0') sign (upper digits)

/-- A text, cut to the precision and filled up to the width. -/
def bytes (s : Text) : Text :=
  let s : Text := match d.precision with
    | some p => s.extract 0 p
    | none => s
  let fill : Text := ⟨(List.replicate (d.width - s.size) (32 : UInt8)).toArray⟩
  if d.has '-' then s ++ fill else fill ++ s

end Directive

def literalText (s : Text) : Text :=
  let rec go : List UInt8 → List UInt8
    | [] => []
    | b :: rest =>
      let written : List UInt8 :=
        if b == 34 || b == 92 || b == 10 then [92, b]
        else if b < 32 || b == 127 then
          let digits := (toString b.toNat).toUTF8.toList
          let digits :=
            if (rest.headD 0 |> isDigitByte) then List.replicate (3 - digits.length) 48 ++ digits
            else digits
          92 :: digits
        else [b]
      written ++ go rest
  ⟨([34] ++ go s.toList ++ [34]).toArray⟩

/-- A number as a literal of the language that reads back exactly. -/
def literalNumber : Numeral → Text
  | .integer n =>
    if n.toInt = -(2 ^ 63) then text "0x8000000000000000" else text (toString n.toInt)
  | .float x =>
    if x.isNaN then text "(0/0)"
    else if x.isInfinite then text (if x.signBit then "-1e9999" else "1e9999")
    else
      let digits := String.ofList (Directive.hexadecimal x)
      text (if x.signBit then "-" ++ digits else digits)

end Grapnel.Guest
