import Grapnel.Instances
import Grapnel.Text.Search
import Grapnel.Text.Utf8

namespace Grapnel

namespace ProcessRecord

/-- The white space between the fields of a status line. -/
def isBlank (c : Char) : Bool :=
  c == ' ' || c == '\t' || c == '\n' || c == '\x0c' || c == '\r'

/-- Drops blanks, and then takes a field off. -/
def nextField (s : List Char) : List Char × List Char :=
  let s := s.dropWhile isBlank
  (s.takeWhile fun c => !isBlank c, s.dropWhile fun c => !isBlank c)

/-- The name, which stands between the first opening and the last closing parenthesis, and the
parent, which is the second field behind it. -/
def parseStat (s : String) : Option (String × Nat) :=
  let chars := s.toList
  match chars.dropWhile (· ≠ '(') with
  | [] => none
  | _ :: inner =>
    match inner.reverse.dropWhile (· ≠ ')') with
    | [] => none
    | _ :: name =>
      let rest := (inner.reverse.takeWhile (· ≠ ')')).reverse
      let (state, rest) := nextField rest
      let (parent, _) := nextField rest
      if state.isEmpty then none
      else (Text.readDecimal? (2 ^ 32) parent).map fun p => (String.ofList name.reverse, p)

def splitZero : List UInt8 → List (List UInt8)
  | [] => [[]]
  | b :: bs =>
    if b = 0 then [] :: splitZero bs
    else
      match splitZero bs with
      | [] => [[b]]
      | part :: parts => (b :: part) :: parts

/-- The arguments of a command line; empty ones are left out. -/
def parseCommandLine (content : List UInt8) : List String :=
  ((splitZero content).filter fun part => !part.isEmpty).map Utf8.lossy

end ProcessRecord

end Grapnel
