namespace Grapnel

/-- What stands at the front of a byte sequence. -/
inductive Utf8Step where
  | char (c : Char) (size : Nat)
  | invalid (size : Nat)
  | incomplete
deriving Inhabited

inductive Utf8Fault where
  | invalid (size index : Nat)
  | incomplete (index : Nat)
deriving DecidableEq, Inhabited

namespace Utf8Fault

def message : Utf8Fault → String
  | .invalid size index =>
    "invalid utf-8 sequence of " ++ toString size ++ " bytes from index " ++ toString index
  | .incomplete index => "incomplete utf-8 byte sequence from index " ++ toString index

end Utf8Fault

namespace Utf8

def isTail (b : UInt8) : Bool := 0x80 ≤ b && b ≤ 0xBF

/-- The second bytes that a first byte admits: no overlong forms, no surrogates, nothing above the
last character. -/
def secondRange (first : UInt8) : UInt8 × UInt8 :=
  if first == 0xE0 then (0xA0, 0xBF)
  else if first == 0xED then (0x80, 0x9F)
  else if first == 0xF0 then (0x90, 0xBF)
  else if first == 0xF4 then (0x80, 0x8F)
  else (0x80, 0xBF)

/-- How many bytes a character has, by its first one. -/
def width? (first : UInt8) : Option Nat :=
  if first < 0x80 then some 1
  else if 0xC2 ≤ first && first ≤ 0xDF then some 2
  else if 0xE0 ≤ first && first ≤ 0xEF then some 3
  else if 0xF0 ≤ first && first ≤ 0xF4 then some 4
  else none

/-- Collects `count` more bytes of a character whose bits so far are `value`. -/
def tail (value seen : Nat) : (count : Nat) → List UInt8 → Utf8Step
  | 0, _ => .char (Char.ofNat value) seen
  | _ + 1, [] => .incomplete
  | count + 1, b :: rest =>
    if isTail b then tail (value * 64 + (b.toNat - 0x80)) (seen + 1) count rest
    else .invalid seen

/-- What stands at the front of a text that begins with `first`. -/
def step (first : UInt8) (rest : List UInt8) : Utf8Step :=
  match width? first with
  | none => .invalid 1
  | some 1 => .char (Char.ofNat first.toNat) 1
  | some width =>
    match rest with
    | [] => .incomplete
    | second :: rest =>
      let (low, high) := secondRange first
      if low ≤ second && second ≤ high then
        let lead := first.toNat - (if width = 2 then 0xC0 else if width = 3 then 0xE0 else 0xF0)
        tail (lead * 64 + (second.toNat - 0x80)) 2 (width - 2) rest
      else .invalid 1

/-- The text with U+FFFD in place of every fault. -/
def lossyChars (s : List UInt8) : List Char :=
  match s with
  | [] => []
  | b :: rest =>
    match step b rest with
    | .char c size => c :: lossyChars (rest.drop (size - 1))
    | .invalid size => '\uFFFD' :: lossyChars (rest.drop (size - 1))
    | .incomplete => ['\uFFFD']
termination_by s.length
decreasing_by all_goals simp only [List.length_drop, List.length_cons]; omega

def lossy (s : List UInt8) : String := String.ofList (lossyChars s)

/-- The first fault of a text, counted from `index`. -/
def fault? (s : List UInt8) (index : Nat) : Option Utf8Fault :=
  match s with
  | [] => none
  | b :: rest =>
    match step b rest with
    | .char _ size => fault? (rest.drop (size - 1)) (index + size)
    | .invalid size => some (.invalid size index)
    | .incomplete => some (.incomplete index)
termination_by s.length
decreasing_by simp only [List.length_drop, List.length_cons]; omega

def decode (s : List UInt8) : Except Utf8Fault String :=
  match fault? s 0 with
  | none => .ok (lossy s)
  | some fault => .error fault

end Utf8

end Grapnel
