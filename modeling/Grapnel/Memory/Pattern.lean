import Grapnel.Memory.Address
import Grapnel.Text.Blank

namespace Grapnel

inductive PatternFault where
  | empty
  | invalidToken (token : String)
  | invalidMask (c : Char)
  | lengthMismatch (bytes mask : Nat)
deriving DecidableEq, Inhabited

namespace PatternFault

def message : PatternFault → String
  | .empty => "Empty pattern"
  | .invalidToken token => "Invalid pattern token \x60" ++ token ++ "\x60"
  | .invalidMask c => "Invalid mask character \x60" ++ c.toString ++ "\x60"
  | .lengthMismatch bytes mask =>
    "Mask length " ++ toString mask ++ " does not match byte length " ++ toString bytes

end PatternFault

/-- One position for every byte to match; a position without a byte is a wildcard. -/
structure BytePattern where
  tokens : List (Option UInt8)
  nonempty : tokens ≠ []
deriving DecidableEq

namespace BytePattern

def ofTokens (tokens : List (Option UInt8)) : Except PatternFault BytePattern :=
  if h : tokens = [] then .error .empty else .ok ⟨tokens, h⟩

/-- A word of the textual notation: question marks, or two digits. -/
def readToken (word : List Char) : Except PatternFault (Option UInt8) :=
  if word = ['?'] ∨ word = ['?', '?'] then .ok none
  else
    let token := String.ofList word
    match if token.utf8ByteSize = 2 then Hexadecimal.read? 256 word else none with
    | some n => .ok (some (UInt8.ofNat n))
    | none => .error (.invalidToken token)

def ofText (s : String) : Except PatternFault BytePattern := do
  ofTokens (← (Text.words s.toList).mapM readToken)

def readMask (byte : UInt8) (c : Char) : Except PatternFault (Option UInt8) :=
  if c = 'x' ∨ c = 'X' then .ok (some byte)
  else if c = '?' then .ok none
  else .error (.invalidMask c)

def ofMask (bytes : List UInt8) (mask : String) : Except PatternFault BytePattern := do
  let mask := mask.toList
  if bytes.length ≠ mask.length then throw (.lengthMismatch bytes.length mask.length)
  ofTokens (← (bytes.zip mask).mapM fun (byte, c) => readMask byte c)

def ofBytes (bytes : List UInt8) : Except PatternFault BytePattern := ofTokens (bytes.map some)

variable (p : BytePattern)

def length : Nat := p.tokens.length

theorem length_pos : 0 < p.length := List.length_pos_iff.mpr p.nonempty

def tokenText : Option UInt8 → String
  | some b => Hexadecimal.byte b
  | none => "??"

def text : String := " ".intercalate (p.tokens.map tokenText)

/-- Whether the bytes from a position on agree with tokens. -/
def agreesFrom (haystack : Array UInt8) : (position : Nat) → List (Option UInt8) → Bool
  | _, [] => true
  | position, token :: tokens =>
    (match haystack[position]? with
      | some b => token.all (· == b)
      | none => false) && agreesFrom haystack (position + 1) tokens

def matchesAt (haystack : Array UInt8) (position : Nat) : Bool :=
  agreesFrom haystack position p.tokens

/-- The same for a position whose window has to end within the address space. -/
def matchesAtWord (haystack : Array UInt8) (position : Nat) : Except Trap Bool := do
  discard (addChecked position p.length)
  return p.matchesAt haystack position

/-- The first position that is no wildcard, and its byte. -/
def anchorFrom : (index : Nat) → List (Option UInt8) → Option (Nat × UInt8)
  | _, [] => none
  | index, some b :: _ => some (index, b)
  | index, none :: tokens => anchorFrom (index + 1) tokens

def anchor? : Option (Nat × UInt8) := anchorFrom 0 p.tokens

theorem anchorFrom_sound {tokens : List (Option UInt8)} {k index : Nat} {b : UInt8}
    (h : anchorFrom k tokens = some (index, b)) :
    ∃ j, index = k + j ∧ tokens[j]? = some (some b) := by
  induction tokens generalizing k with
  | nil => cases h
  | cons token tokens ih =>
    cases token with
    | some b' =>
      obtain ⟨rfl, rfl⟩ : k = index ∧ b' = b := by simpa [anchorFrom] using h
      exact ⟨0, rfl, rfl⟩
    | none =>
      obtain ⟨j, rfl, hj⟩ := ih h
      exact ⟨j + 1, by omega, by simpa using hj⟩

theorem anchor?_lt {index : Nat} {b : UInt8} (h : p.anchor? = some (index, b)) :
    index < p.length := by
  obtain ⟨j, rfl, hj⟩ := anchorFrom_sound h
  obtain ⟨hlt, _⟩ := List.getElem?_eq_some_iff.1 hj
  rwa [Nat.zero_add]

/-- A part of some bytes; there is none where it would reach past an end of them. -/
def slice? (haystack : Array UInt8) (start stop : Nat) : Option (Array UInt8) :=
  if start ≤ stop ∧ stop ≤ haystack.size then some (haystack.extract start stop) else none

/-- How the positions of a byte are looked for. -/
abbrev ByteSearch := UInt8 → Array UInt8 → List Nat

/-- Every position of a byte, in ascending order. -/
def positionsOf : ByteSearch := fun b bytes =>
  (List.range bytes.size).filter fun i => bytes[i]? == some b

/-- Positions at which a match can begin, going by the anchor. It is looked for in the part of the
bytes in which it stands for one of them. -/
def candidates? (search : ByteSearch) (haystack : Array UInt8) : Option (List Nat) :=
  if haystack.size < p.length then some []
  else
    let last := haystack.size - p.length
    match p.anchor? with
    | some (index, b) =>
      (slice? haystack index (last + index + 1)).map fun part =>
        (search b part).filter (· ≤ last)
    | none => some (List.range (last + 1))

/-- No part is asked for that reaches past an end of the bytes, however the anchor is looked for. -/
theorem isSome_candidates? (search : ByteSearch) (haystack : Array UInt8) :
    (p.candidates? search haystack).isSome = true := by
  rw [candidates?]
  split
  · rfl
  · dsimp only
    split
    · next index b ha =>
      have hlt := p.anchor?_lt ha
      rw [slice?, if_pos (by omega)]
      rfl
    · rfl

/-- Positions of matches in ascending order; matches may overlap. -/
def findAllBy? (search : ByteSearch) (haystack : Array UInt8) : Option (List Nat) :=
  (p.candidates? search haystack).map (·.filter (p.matchesAt haystack))

theorem isSome_findAllBy? (search : ByteSearch) (haystack : Array UInt8) :
    (p.findAllBy? search haystack).isSome = true := by
  rw [findAllBy?, Option.isSome_map]
  exact p.isSome_candidates? search haystack

def findAll (haystack : Array UInt8) : List Nat :=
  (p.findAllBy? positionsOf haystack).get (p.isSome_findAllBy? positionsOf haystack)

def find? (haystack : Array UInt8) : Option Nat := (p.findAll haystack).head?

end BytePattern

end Grapnel
