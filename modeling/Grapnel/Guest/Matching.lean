import Grapnel.Guest.Value

namespace Grapnel.Guest

inductive Extent where
  | closed (size : Nat)
  | position
  | unfinished
deriving DecidableEq, Inhabited

structure Captured where
  start : Nat
  extent : Extent
deriving Inhabited

abbrev Captures := Array Captured

/-- A subject and the pattern that it is matched with. -/
structure Matching where
  subject : Text
  pattern : Text

namespace Matching

/-- Either an error, or the end of a match and what was captured, or no match. -/
abbrev Result := Except Text (Option (Nat × Captures))

def escape : UInt8 := 37

def maxCaptures : Nat := 32

def maxNesting : Nat := 200

def isPunctuation (b : UInt8) : Bool :=
  33 ≤ b && b ≤ 126 && !isNameByte b || b == 95

/-- Whether a byte is in the class of a letter; an upper-case letter stands for all other bytes. -/
def inClass (b letter : UInt8) : Bool :=
  let lower := if isUpperByte letter then letter + 32 else letter
  let member? : Option Bool :=
    if lower == 97 then some (isUpperByte b || isLowerByte b)
    else if lower == 99 then some (b < 32 || b == 127)
    else if lower == 100 then some (isDigitByte b)
    else if lower == 103 then some (33 ≤ b && b ≤ 126)
    else if lower == 108 then some (isLowerByte b)
    else if lower == 112 then some (isPunctuation b)
    else if lower == 115 then some (isBlankByte b)
    else if lower == 117 then some (isUpperByte b)
    else if lower == 119 then some (isUpperByte b || isLowerByte b || isDigitByte b)
    else if lower == 120 then some (isHexByte b)
    else if lower == 122 then some (b == 0)
    else none
  match member? with
  | some r => if isUpperByte letter then !r else r
  | none => letter == b

variable (m : Matching)

/-- The byte of the pattern at a position; NUL stands after its end. -/
def at' (p : Nat) : UInt8 := m.pattern.data.getD p 0

def subjectAt (s : Nat) : UInt8 := m.subject.data.getD s 0

/-- The end of a set, from after its opening on. -/
def setEnd : (fuel p : Nat) → Except Text Nat
  | 0, _ => .error (text "malformed pattern (missing ']')")
  | fuel + 1, p =>
    if m.pattern.size ≤ p then .error (text "malformed pattern (missing ']')")
    else
      let next := if m.at' p == escape && p + 1 < m.pattern.size then p + 2 else p + 1
      if m.at' next == 93 then .ok (next + 1) else setEnd fuel next

/-- The end of the single-byte item at a position. -/
def itemEnd (p : Nat) : Except Text Nat :=
  if m.at' p == escape then
    if p + 1 = m.pattern.size then .error (text "malformed pattern (ends with '%')")
    else .ok (p + 2)
  else if m.at' p == 91 then
    m.setEnd (m.pattern.size + 1) (if m.at' (p + 1) == 94 then p + 2 else p + 1)
  else .ok (p + 1)

/-- Whether a byte is one of a set's members, from position `p` up to the closing bracket at
`last`. -/
def hasMember (b : UInt8) : (fuel p last : Nat) → Bool
  | 0, _, _ => false
  | fuel + 1, p, last =>
    if last ≤ p then false
    else if m.at' p == escape then
      inClass b (m.at' (p + 1)) || hasMember b fuel (p + 2) last
    else if m.at' (p + 1) == 45 && p + 2 < last then
      (m.at' p ≤ b && b ≤ m.at' (p + 2)) || hasMember b fuel (p + 3) last
    else m.at' p == b || hasMember b fuel (p + 1) last

/-- Whether a byte is in the set that opens at `p` and closes at `last`. -/
def inSet (b : UInt8) (p last : Nat) : Bool :=
  if m.at' (p + 1) == 94 then !m.hasMember b (m.pattern.size + 1) (p + 2) last
  else m.hasMember b (m.pattern.size + 1) (p + 1) last

/-- Whether the subject has, at a position, a byte that the item at `p` matches. -/
def matchesItem (s p stop : Nat) : Bool :=
  if m.subject.size ≤ s then false
  else
    let b := m.subjectAt s
    if m.at' p == 46 then true
    else if m.at' p == escape then inClass b (m.at' (p + 1))
    else if m.at' p == 91 then m.inSet b p (stop - 1)
    else m.at' p == b

/-- How many bytes from a position on an item matches. -/
def countItems (p stop : Nat) : (fuel s : Nat) → Nat
  | 0, _ => 0
  | fuel + 1, s => if m.matchesItem s p stop then countItems p stop fuel (s + 1) + 1 else 0

/-- The end of a balanced pair: `depth` opening bytes wait for their closing ones. -/
def balancedEnd (opening closing : UInt8) : (fuel s depth : Nat) → Option Nat
  | 0, _, _ => none
  | fuel + 1, s, depth =>
    if m.subject.size ≤ s then none
    else if m.subjectAt s == closing then
      if depth = 1 then some (s + 1) else balancedEnd opening closing fuel (s + 1) (depth - 1)
    else if m.subjectAt s == opening then balancedEnd opening closing fuel (s + 1) (depth + 1)
    else balancedEnd opening closing fuel (s + 1) depth

/-- Matches the rest after the longest of `count` repetitions that allows it. -/
def longest (rest : Nat → Result) (s : Nat) : (count : Nat) → Result
  | 0 => rest s
  | count + 1 => do
    match ← rest (s + (count + 1)) with
    | some r => return some r
    | none => longest rest s count

/-- Matches the rest after the shortest repetition that allows it. -/
def shortest (rest : Nat → Result) (p stop : Nat) : (fuel s : Nat) → Result
  | 0, _ => return none
  | fuel + 1, s => do
    match ← rest s with
    | some r => return some r
    | none => if m.matchesItem s p stop then shortest rest p stop fuel (s + 1) else return none

def openCapture? (captures : Captures) : Option Nat :=
  ((List.range captures.size).reverse).find? fun i =>
    (captures.getD i default).extent == .unfinished

def badIndex (i : Nat) : Text := text ("invalid capture index %" ++ toString i)

def backReference (captures : Captures) (digit : UInt8) (s : Nat) : Except Text (Option Nat) :=
  let i := digit.toNat - 48
  match (if i = 0 then none else captures[i - 1]?) with
  | some ⟨start, .closed size⟩ =>
    if size ≤ m.subject.size - s
        && m.subject.extract start (start + size) == m.subject.extract s (s + size) then
      .ok (some (s + size))
    else .ok none
  | some ⟨_, .position⟩ => .ok none
  | _ => .error (badIndex i)

/-- Matches the pattern from `p` on at a position of the subject; `deeper` matches one level
further down. -/
def step (deeper : Nat → Nat → Captures → Result) :
    (fuel : Nat) → (s p : Nat) → Captures → Result
  | 0, _, _, _ => return none
  | fuel + 1, s, p, captures => do
    if m.pattern.size ≤ p then return some (s, captures)
    let c := m.at' p
    if c == 40 then
      let (extent, next) :=
        if m.at' (p + 1) == 41 then (Extent.position, p + 2) else (.unfinished, p + 1)
      if maxCaptures ≤ captures.size then throw (text "too many captures")
      deeper s next (captures.push ⟨s, extent⟩)
    else if c == 41 then
      match openCapture? captures with
      | none => throw (text "invalid pattern capture")
      | some i => deeper s (p + 1) (captures.modify i fun c => { c with extent := .closed (s - c.start) })
    else if c == 36 && p + 1 = m.pattern.size then
      return if s = m.subject.size then some (s, captures) else none
    else if c == escape && m.at' (p + 1) == 98 then
      if m.pattern.size ≤ p + 3 then throw (text "malformed pattern (missing arguments to '%b')")
      if s < m.subject.size && m.subjectAt s == m.at' (p + 2) then
        match m.balancedEnd (m.at' (p + 2)) (m.at' (p + 3)) (m.subject.size + 1) (s + 1) 1 with
        | some s => step deeper fuel s (p + 4) captures
        | none => return none
      else return none
    else if c == escape && m.at' (p + 1) == 102 then
      if m.at' (p + 2) != 91 then throw (text "missing '[' after '%f' in pattern")
      let stop ← m.itemEnd (p + 2)
      let previous := if s = 0 then 0 else m.subjectAt (s - 1)
      if !m.inSet previous (p + 2) (stop - 1) && m.inSet (m.subjectAt s) (p + 2) (stop - 1) then
        step deeper fuel s stop captures
      else return none
    else if c == escape && isDigitByte (m.at' (p + 1)) then
      match ← m.backReference captures (m.at' (p + 1)) s with
      | some s => step deeper fuel s (p + 2) captures
      | none => return none
    else
      let stop ← m.itemEnd p
      let suffix := m.at' stop
      let once := m.matchesItem s p stop
      if suffix == 42 || (suffix == 43 && once) then
        let s := if suffix == 43 then s + 1 else s
        let rest (s : Nat) : Result := deeper s (stop + 1) captures
        if once then longest rest s (m.countItems p stop (m.subject.size + 1) s)
        else step deeper fuel s (stop + 1) captures
      else if suffix == 45 then
        if once then m.shortest (fun s => deeper s (stop + 1) captures) p stop (m.subject.size + 1) s
        else step deeper fuel s (stop + 1) captures
      else if suffix == 63 then
        if once then
          match ← deeper (s + 1) (stop + 1) captures with
          | some r => return some r
          | none => step deeper fuel s (stop + 1) captures
        else step deeper fuel s (stop + 1) captures
      else if once then step deeper fuel (s + 1) stop captures
      else return none

/-- Matches the pattern from `p` on, nested at most so many levels. -/
def matchFrom : (levels : Nat) → (s p : Nat) → Captures → Result
  | 0, _, _, _ => throw (text "pattern too complex")
  | levels + 1, s, p, captures =>
    m.step (matchFrom levels) (m.pattern.size + 1) s p captures

/-- Whether the pattern is tied to the start. -/
def isAnchored : Bool := m.pattern.data.getD 0 0 == 94

/-- A match that begins at a position: its end and captures. -/
def matchAt (s : Nat) : Result := m.matchFrom maxNesting s (if m.isAnchored then 1 else 0) #[]

/-- The first match that begins at or after a position: its start, end and captures. -/
def search (fuel s : Nat) : Except Text (Option (Nat × Nat × Captures)) := do
  match fuel with
  | 0 => return none
  | fuel + 1 =>
    match ← m.matchAt s with
    | some (e, captures) => return some (s, e, captures)
    | none =>
      if m.isAnchored || m.subject.size ≤ s then return none else search fuel (s + 1)

/-- The value of a capture; without captures the first one is the whole match. -/
def capture (captures : Captures) (i s e : Nat) : Except Text Value :=
  match captures[i]? with
  | some ⟨start, .closed size⟩ => .ok (.string (m.subject.extract start (start + size)))
  | some ⟨start, .position⟩ => .ok (Value.ofNat (start + 1))
  | some ⟨_, .unfinished⟩ => .error (text "unfinished capture")
  | none =>
    if i = 0 then .ok (.string (m.subject.extract s e)) else .error (badIndex (i + 1))

/-- The values of all captures, or of the whole match if there are none and it counts. -/
def captureList (captures : Captures) (whole : Bool) (s e : Nat) : Except Text (List Value) :=
  let count := if captures.isEmpty && whole then 1 else captures.size
  (List.range count).mapM fun i => m.capture captures i s e

end Matching

/-- Whether a pattern has no byte with a meaning of its own. -/
def isPlainPattern (pattern : Text) : Bool :=
  pattern.toList.all fun b => !(text "^$*+?.([%-").toList.contains b

/-- The first place at or after `start` where one text stands in another. -/
def findText (subject needle : Text) (start : Nat) : Option Nat :=
  let needle := needle.toList
  let rec go : (fuel i : Nat) → List UInt8 → Option Nat
    | 0, _, _ => none
    | fuel + 1, i, rest =>
      if needle.isPrefixOf rest then some i
      else match rest with
        | [] => none
        | _ :: rest => go fuel (i + 1) rest
  go (subject.size + 1) start (subject.toList.drop start)

end Grapnel.Guest
