import Grapnel.Instances

namespace Grapnel

namespace Hexadecimal

/-- The digits of a number, in lower case. -/
def digits (n : Nat) : List Char := Nat.toDigits 16 n

/-- The digits with zeros in front, up to a width. -/
def padded (width n : Nat) : List Char :=
  let ds := digits n
  List.replicate (width - ds.length) '0' ++ ds

def upper (cs : List Char) : List Char := cs.map Char.toUpper

/-- The digits behind a prefix that tells the base. -/
def tagged (n : Nat) : String := "0x" ++ String.ofList (digits n)

def byte (b : UInt8) : String := String.ofList (upper (padded 2 b.toNat))

def value? (c : Char) : Option Nat :=
  if '0' ≤ c ∧ c ≤ '9' then some (c.toNat - '0'.toNat)
  else if 'a' ≤ c ∧ c ≤ 'f' then some (c.toNat - 'a'.toNat + 10)
  else if 'A' ≤ c ∧ c ≤ 'F' then some (c.toNat - 'A'.toNat + 10)
  else none

/-- The number that digits denote, most significant first. -/
def ofDigits? : List Char → (acc : Nat) → Option Nat
  | [], acc => some acc
  | c :: cs, acc => (value? c).bind fun d => ofDigits? cs (16 * acc + d)

/-- A number below `limit`, at least one digit long, perhaps with a plus sign. -/
def read? (limit : Nat) (cs : List Char) : Option Nat :=
  let ds := match cs with
    | '+' :: ds => ds
    | ds => ds
  if ds.isEmpty then none
  else (ofDigits? ds 0).bind fun n => if n < limit then some n else none

end Hexadecimal

end Grapnel
