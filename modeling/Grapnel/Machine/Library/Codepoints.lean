import Grapnel.Machine.Library.Text

namespace Grapnel

open Guest

namespace CodepointLibrary

/-- A character at the front of a text: its code and its length in bytes. Unless `lax`, surrogates
and codes above the last character are refused. -/
def decode? (lax : Bool) (s : List UInt8) : Option (Nat × Nat) :=
  match s with
  | [] => none
  | first :: rest =>
    let c := first.toNat
    if c < 0x80 then some (c, 1)
    else if c < 0xC0 || 0xFE ≤ c then none
    else
      let tails := if c < 0xE0 then 1 else if c < 0xF0 then 2 else if c < 0xF8 then 3
        else if c < 0xFC then 4 else 5
      let tail := rest.take tails
      if tail.length < tails || !tail.all Utf8.isTail then none
      else
        let code := tail.foldl (fun n b => n * 64 + b.toNat % 64) (c % 2 ^ (6 - tails))
        let least := if tails = 1 then 0x80 else 2 ^ (5 * tails + 1)
        if code < least then none
        else if !lax && (0x10FFFF < code || (0xD800 ≤ code && code ≤ 0xDFFF)) then none
        else some (code, tails + 1)

/-- A position in which negative numbers count from the end. -/
def position (i : Int) (length : Nat) : Int :=
  if 0 ≤ i then i else if (length : Int) < -i then 0 else length + i + 1

def char (c : NativeCall) : Action (List Value) := do
  let texts ← (List.range c.args.length).mapM fun i => do
    let n ← c.int (i + 1)
    if n < 0 || 0x7FFFFFFF < n then c.refuseWith (i + 1) "value out of range"
    else pure (wideUtf8 n.toNat)
  return [.string (TextLibrary.bytes texts.flatten)]

/-- The characters that begin at offsets up to `last`: each code with its offset, or the offset at
which no character stands. -/
def charactersUpTo (lax : Bool) (last : Int) :
    (fuel : Nat) → (offset : Nat) → List UInt8 → Except Nat (List (Nat × Nat))
  | 0, _, _ => .ok []
  | fuel + 1, offset, s =>
    if last < offset then .ok []
    else
      match decode? lax s with
      | none => .error offset
      | some (code, size) => do
        return (offset, code) :: (← charactersUpTo lax last fuel (offset + size) (s.drop size))

def len (c : NativeCall) : Action (List Value) := do
  let s ← c.string 1
  let first := position (← c.intOr 2 1) s.size
  if first < 1 || (s.size : Int) + 1 < first then
    c.refuseWith 2 "initial position out of bounds"
  let last := position (← c.intOr 3 (-1)) s.size
  if (s.size : Int) < last then c.refuseWith 3 "final position out of bounds"
  let offset := (first - 1).toNat
  match charactersUpTo (c.arg 4).truthy (last - 1) (s.size + 1) offset (s.toList.drop offset) with
  | .ok characters => return [.ofNat characters.length]
  | .error offset => return [.nil, .ofNat (offset + 1)]

def codepoint (c : NativeCall) : Action (List Value) := do
  let s ← c.string 1
  let first := position (← c.intOr 2 1) s.size
  let last := position (← c.intOr 3 first) s.size
  if first < 1 then c.refuseWith 2 "out of bounds"
  if (s.size : Int) < last then c.refuseWith 3 "out of bounds"
  let offset := (first - 1).toNat
  match charactersUpTo (c.arg 4).truthy (last - 1) (s.size + 1) offset (s.toList.drop offset) with
  | .ok characters => return characters.map fun e => .ofNat e.2
  | .error _ => Action.failHere "invalid UTF-8 code"

def isTailAt (s : Text) (i : Int) : Bool :=
  0 ≤ i && (s.data[i.toNat]?).any Utf8.isTail

/-- The first position, going `step` by `step`, that is not inside a character. -/
def skipTails (s : Text) (step : Int) : (fuel : Nat) → (i : Int) → Int
  | 0, i => i
  | fuel + 1, i => if 0 < i && isTailAt s i then skipTails s step fuel (i + step) else i

def offsetBack (s : Text) : (count : Nat) → (i : Int) → Option Int
  | 0, i => some i
  | count + 1, i =>
    if i ≤ 0 then none else offsetBack s count (skipTails s (-1) (s.size + 1) (i - 1))

def offsetAhead (s : Text) : (count : Nat) → (i : Int) → Option Int
  | 0, i => some i
  | count + 1, i =>
    if (s.size : Int) ≤ i then none
    else offsetAhead s count (skipTails s 1 (s.size + 1) (i + 1))

def offset (c : NativeCall) : Action (List Value) := do
  let s ← c.string 1
  let n ← c.int 2
  let start := position (← c.intOr 3 (if 0 < n then 1 else s.size + 1)) s.size
  if start < 1 || (s.size : Int) + 1 < start then c.refuseWith 3 "position out of bounds"
  let i := start - 1
  if n = 0 then return [.integer (Int64.ofInt (skipTails s (-1) (s.size + 1) i + 1))]
  else if isTailAt s i then Action.failHere "initial position is a continuation byte"
  else
    let found := if n < 0 then offsetBack s (-n).toNat i else offsetAhead s (n - 1).toNat i
    match found with
    | some i => return [.integer (Int64.ofInt (i + 1))]
    | none => return [.nil]

def codes (c : NativeCall) : Action (List Value) := do
  let s ← c.string 1
  if isTailAt s 0 then c.refuseWith 1 "invalid UTF-8 code"
  return [(← get).native (.utf8 .codesStep), .string s, .integer 0]

def codesStep (c : NativeCall) : Action (List Value) := do
  let s ← c.string 1
  let i ← c.int 2
  let next := if i ≤ 0 then 0 else skipTails s 1 (s.size + 1) i
  if (s.size : Int) ≤ next then return []
  else
    let rest := s.toList.drop next.toNat
    match decode? false rest with
    | some (code, size) =>
      if isTailAt s (next + size) then Action.failHere "invalid UTF-8 code"
      else return [.integer (Int64.ofInt (next + 1)), .ofNat code]
    | none => Action.failHere "invalid UTF-8 code"

def perform (f : Utf8Function) (c : NativeCall) : Action (List Value) :=
  match f with
  | .char => char c
  | .codepoint => codepoint c
  | .codes => codes c
  | .codesStep => codesStep c
  | .len => len c
  | .offset => offset c

end CodepointLibrary

end Grapnel
