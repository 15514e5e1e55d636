import Grapnel.Guest.Formatting
import Grapnel.Guest.Matching
import Grapnel.Machine.Action

namespace Grapnel

open Guest

namespace TextLibrary

/-- A start position: negative ones count from the end, and it is at least one. -/
def startPosition (i : Int) (length : Nat) : Nat :=
  if 0 < i then i.toNat
  else if i = 0 then 1
  else if i < -(length : Int) then 1
  else ((length : Int) + i + 1).toNat

/-- An end position: negative ones count from the end, and it is at most the length. -/
def endPosition (i : Int) (length : Nat) : Nat :=
  if (length : Int) < i then length
  else if 0 ≤ i then i.toNat
  else if i < -(length : Int) then 0
  else ((length : Int) + i + 1).toNat

def bytes (s : List UInt8) : Text := ⟨s.toArray⟩

def mapBytes (f : UInt8 → UInt8) (s : Text) : Text := ⟨s.data.map f⟩

def sub (c : NativeCall) : Action (List Value) := do
  let s ← c.string 1
  let first := startPosition (← c.int 2) s.size
  let last := endPosition (← c.intOr 3 (-1)) s.size
  return [.string (if first ≤ last then s.extract (first - 1) last else .empty)]

def byte (c : NativeCall) : Action (List Value) := do
  let s ← c.string 1
  let i ← c.intOr 2 1
  let first := startPosition i s.size
  let last := endPosition (← c.intOr 3 i) s.size
  if first ≤ last then
    return (s.extract (first - 1) last).toList.map fun b => .ofNat b.toNat
  else return []

def char (c : NativeCall) : Action (List Value) := do
  let codes ← (List.range c.args.length).mapM fun i => do
    let n ← c.int (i + 1)
    if n < 0 || 255 < n then c.refuseWith (i + 1) "value out of range"
    else pure (UInt8.ofNat n.toNat)
  return [.string (bytes codes)]

/-- More than this is never put together. -/
def maxSize : Nat := 2 ^ 31

def rep (c : NativeCall) : Action (List Value) := do
  let s ← c.string 1
  let n ← c.int 2
  let separator ← c.stringOr 3 .empty
  if n ≤ 0 then return [.string .empty]
  else if 2 ^ 63 ≤ (s.size + separator.size) * n.toNat then
    Action.failHere "resulting string too large"
  else if maxSize < (s.size + separator.size) * n.toNat then
    Action.failText (text "not enough memory")
  else
    let item := separator ++ s
    return [.string ((List.replicate (n.toNat - 1) item).foldl (· ++ ·) s)]

/-- Raises the error of a pattern, or goes on. -/
def lift {α : Type} : Except Text α → Action α
  | .ok a => return a
  | .error e => Action.failAt 1 e

/-- Finds a pattern from a start position on; `positions` asks for the place of the match. -/
def search (positions : Bool) (c : NativeCall) : Action (List Value) := do
  let s ← c.string 1
  let pattern ← c.string 2
  let start := startPosition (← c.intOr 3 1) s.size - 1
  if s.size < start then return [.nil]
  else if positions && ((c.arg 4).truthy || isPlainPattern pattern) then
    match findText s pattern start with
    | some i => return [.ofNat (i + 1), .ofNat (i + pattern.size)]
    | none => return [.nil]
  else
    let m : Matching := ⟨s, pattern⟩
    match ← lift (m.search (s.size + 1) start) with
    | some (first, stop, captures) =>
      let values ← lift (m.captureList captures (!positions) first stop)
      return if positions then .ofNat (first + 1) :: .ofNat stop :: values else values
    | none => return [.nil]

def gmatch (c : NativeCall) : Action (List Value) := do
  let s ← c.string 1
  let pattern ← c.string 2
  let start := startPosition (← c.intOr 3 1) s.size - 1
  return [← Action.newFunction (.matcher s pattern (min start (s.size + 1)) none)]

/-- The next match at or after a position that does not end where the last one did. -/
def nextMatch (m : Matching) (last : Option Nat) :
    (fuel s : Nat) → Except Text (Option (Nat × Nat × Captures))
  | 0, _ => .ok none
  | fuel + 1, s => do
    if m.subject.size < s then return none
    match ← m.matchFrom Matching.maxNesting s 0 #[] with
    | some (stop, captures) =>
      if some stop = last then nextMatch m last fuel (s + 1) else return some (s, stop, captures)
    | none => nextMatch m last fuel (s + 1)

def advanceMatcher (self : FunctionRef) (source pattern : Text) (position : Nat)
    (last : Option Nat) : Action (List Value) := do
  let m : Matching := ⟨source, pattern⟩
  match ← lift (nextMatch m last (source.size + 2) position) with
  | some (s, stop, captures) =>
    Action.modifyHeap (·.setFunction self (.matcher source pattern stop (some stop)))
    lift (m.captureList captures true s stop)
  | none => return [.nil]

/-- A replacement text with its references to captures filled in. -/
def expand (m : Matching) (captures : Captures) (s e : Nat) :
    List UInt8 → Except Text (List UInt8)
  | [] => .ok []
  | [b] =>
    if b == Matching.escape then .error (text "invalid use of '%' in replacement string")
    else .ok [b]
  | b :: d :: rest =>
    if b == Matching.escape then do
      let written ←
        if d == Matching.escape then pure [Matching.escape]
        else if d == 48 then pure (m.subject.extract s e).toList
        else if isDigitByte d then
          match ← m.capture captures (d.toNat - 49) s e with
          | .string t => pure t.toList
          | v => pure (v.text?.getD .empty).toList
        else throw (text "invalid use of '%' in replacement string")
      return written ++ (← expand m captures s e rest)
    else return b :: (← expand m captures s e (d :: rest))

/-- What a match is replaced by, if it is. -/
def replacement (m : Matching) (by' : Value) (captures : Captures) (s e : Nat) :
    Action (Option Text) := do
  let value ← match by' with
    | .table _ => do Action.index by' (← lift (m.capture captures 0 s e))
    | .function _ => do
      pure ((← Action.callBack by' (← lift (m.captureList captures true s e))).headD .nil)
    | v => do
      pure (Value.string (bytes (← lift (expand m captures s e (v.text?.getD .empty).toList))))
  if !value.truthy then return none
  else match value.text? with
    | some t => return some t
    | none => Action.failHere ("invalid replacement value (a " ++ value.typeName ++ ")")

/-- Replaces up to `limit` matches from a position on; answers the text from there and the count. -/
def substitute (m : Matching) (by' : Value) (start : Nat) :
    (fuel limit s : Nat) → (last : Option Nat) → (done : Text) → (count : Nat) →
      Action (Text × Nat)
  | 0, _, _, _, done, count => return (done, count)
  | fuel + 1, limit, s, last, done, count => do
    let rest : Text := done ++ m.subject.extract s m.subject.size
    if limit = 0 then return (rest, count)
    match ← lift (m.matchFrom Matching.maxNesting s start #[]) with
    | some (e, captures) =>
      if some e ≠ last then
        let written := (← replacement m by' captures s e).getD (m.subject.extract s e)
        if m.isAnchored then
          return (done ++ written ++ m.subject.extract e m.subject.size, count + 1)
        else
          return ← substitute m by' start fuel (limit - 1) e (some e) (done ++ written) (count + 1)
    | none => pure ()
    if s < m.subject.size && !m.isAnchored then
      substitute m by' start fuel limit (s + 1) last (done.push (m.subjectAt s)) count
    else return (rest, count)

def gsub (c : NativeCall) : Action (List Value) := do
  let s ← c.string 1
  let pattern ← c.string 2
  let by' := c.arg 3
  let limit ← c.intOr 4 (s.size + 1)
  match by' with
  | .table _ | .function _ => pure ()
  | v => if v.text?.isNone then c.refuseType 3 "string/function/table"
  let m : Matching := ⟨s, pattern⟩
  let (result, count) ← substitute m by' (if m.isAnchored then 1 else 0) (2 * s.size + 3)
    (min limit (s.size + 1)).toNat 0 none .empty 0
  return [.string result, .ofNat count]

def literal (c : NativeCall) (i : Nat) : Action Text := do
  match c.arg i with
  | .nil => return text "nil"
  | .boolean b => return text (if b then "true" else "false")
  | .string s => return literalText s
  | v => match v.numeral? with
    | some n => return literalNumber n
    | none => c.refuseWith i "value has no literal form"

/-- The text of one directive, for the argument at a position. -/
def directive (c : NativeCall) (d : Directive) (i : Nat) : Action Text := do
  let invalid : Action Unit := do
    Action.failAt 1 (text "invalid conversion '" ++ d.written ++ text "' to 'format'")
  let check (flags : String) (precise : Bool) : Action Unit :=
    if d.keeps flags precise then pure () else invalid
  match Char.ofNat d.letter.toNat with
  | 'c' =>
    let n ← c.integer i
    check "-" false
    return { d with precision := none }.bytes ⟨#[n.toUInt64.toUInt8]⟩
  | 'd' | 'i' =>
    let n ← c.integer i
    check "-+ 0" true
    return d.integer n
  | 'u' =>
    let n ← c.integer i
    check "-0" true
    return d.integer n
  | 'o' | 'x' | 'X' =>
    let n ← c.integer i
    check "-#0" true
    return d.integer n
  | 'a' | 'A' | 'f' | 'e' | 'E' | 'g' | 'G' =>
    if d.letter == 97 || d.letter == 65 then check "-+ #0" true
    let x ← c.double i
    check "-+ #0" true
    return d.double x
  | 'p' =>
    check "-" false
    return { d with precision := none }.bytes (Action.addressOf (← c.value i))
  | 'q' =>
    if d.shape.isEmpty then literal c i
    else Action.failHere "specifier '%q' cannot have modifiers"
  | 's' =>
    let s ← Action.toText (← c.value i)
    if d.shape.isEmpty then return s
    else if s.toList.contains 0 then c.refuseWith i "string contains zeros"
    else
      check "-" true
      return d.bytes s
  | _ =>
    invalid
    return .empty

def formatFrom (c : NativeCall) : (fuel : Nat) → List UInt8 → (i : Nat) → Action Text
  | 0, _, _ => return .empty
  | _ + 1, [], _ => return .empty
  | fuel + 1, b :: rest, i => do
    if b != Matching.escape then return (bytes [b]) ++ (← formatFrom c fuel rest i)
    else if rest.head? = some Matching.escape then
      return (bytes [b]) ++ (← formatFrom c fuel rest.tail i)
    else if c.args.length ≤ i then c.refuseWith (i + 1) "no value"
    else match Directive.read? rest with
      | none => Action.failHere "invalid format string to 'format'"
      | some (d, rest) =>
        let shown ← directive c d (i + 1)
        return shown ++ (← formatFrom c fuel rest (i + 1))

def format (c : NativeCall) : Action (List Value) := do
  let s ← c.string 1
  return [.string (← formatFrom c (s.size + 1) s.toList 1)]

/-- Refuses arithmetic on values that do not read as numbers, unless the second one has a function
for it. -/
def tryEvent (name : String) (a b : Value) : Action (List Value) := do
  let heap ← Action.heap
  let f : Value := match b with
    | .string _ => .nil
    | b => heap.event b name
  match f with
  | .nil =>
    Action.failHere ("attempt to " ++ (name.drop 2).toString ++ " a '" ++ a.typeName ++ "' with a '"
      ++ b.typeName ++ "'")
  | f => Action.callBack f [a, b]

def binary (op : BinaryOp) (c : NativeCall) : Action (List Value) := do
  match (c.arg 1).coerced?, (c.arg 2).coerced? with
  | some m, some n =>
    match Arithmetic.onNumerals op m n with
    | .ok v => return [v]
    | .error e => Action.failText e
  | _, _ => tryEvent op.event (c.arg 1) (c.arg 2)

def negate (c : NativeCall) : Action (List Value) := do
  match (c.arg 1).coerced? with
  | some n => return [Arithmetic.negate n]
  | none => tryEvent "__unm" (c.arg 1) (c.arg 2)

def perform (f : StringFunction) (c : NativeCall) : Action (List Value) := do
  match f with
  | .byte => byte c
  | .char => char c
  | .find => search true c
  | .format => format c
  | .gmatch => gmatch c
  | .gsub => gsub c
  | .len => return [.ofNat (← c.string 1).size]
  | .lower =>
    return [.string (mapBytes (fun b => if isUpperByte b then b + 32 else b) (← c.string 1))]
  | .match => search false c
  | .rep => rep c
  | .reverse => return [.string (bytes (← c.string 1).toList.reverse)]
  | .sub => sub c
  | .upper =>
    return [.string (mapBytes (fun b => if isLowerByte b then b - 32 else b) (← c.string 1))]
  | .binary op => binary op c
  | .negate => negate c

end TextLibrary

end Grapnel
