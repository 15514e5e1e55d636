namespace Grapnel

namespace Text

/-- What stands before the first occurrence of `needle`. -/
def before? (needle : List Char) : List Char → Option (List Char)
  | [] => if needle.isEmpty then some [] else none
  | c :: cs =>
    if needle.isPrefixOf (c :: cs) then some [] else (before? needle cs).map (c :: ·)

def hasInfix (needle s : List Char) : Bool := (before? needle s).isSome

/-- The text up to the first occurrence of `needle`, or all of it. -/
def cutAt (needle s : List Char) : List Char := (before? needle s).getD s

/-- The parts between separators; there is one part more than there are separators. -/
def fields (separator : Char) : List Char → List (List Char)
  | [] => [[]]
  | c :: cs =>
    if c = separator then [] :: fields separator cs
    else
      match fields separator cs with
      | [] => [[c]]
      | word :: words => (c :: word) :: words

/-- The number that decimal digits denote. -/
def decimalValue (digits : List Char) : Nat :=
  digits.foldl (fun n c => 10 * n + (c.toNat - '0'.toNat)) 0

/-- A decimal number below `limit`, at least one digit long, perhaps with a plus sign. -/
def readDecimal? (limit : Nat) (s : List Char) : Option Nat :=
  let digits := match s with
    | '+' :: digits => digits
    | digits => digits
  if digits.isEmpty || !digits.all Char.isDigit then none
  else if decimalValue digits < limit then some (decimalValue digits) else none

def stripReturn (line : List Char) : List Char :=
  if line.getLast? = some '\r' then line.dropLast else line

/-- Takes the line ends off: what follows the last one is a line only if it is not empty. -/
def endLines : List (List Char) → List (List Char)
  | [] => []
  | [last] => if last.isEmpty then [] else [last]
  | line :: rest => stripReturn line :: endLines rest

def lines (s : List Char) : List (List Char) := endLines (fields '\n' s)

/-- A text in lower case, as far as its letters are in ASCII. -/
def lowered (s : String) : List Char := s.toList.map Char.toLower

def equalsIgnoringCase (a b : String) : Bool := lowered a == lowered b

end Text

end Grapnel
