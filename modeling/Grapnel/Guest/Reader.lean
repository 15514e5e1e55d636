import Grapnel.Guest.Scope

namespace Grapnel.Guest

/-- What is read and what is in force at one point of the source. -/
structure Reader where
  current : Lexeme
  ahead : List (Except SourceError Lexeme)
  line : Nat
  lastLine : Nat
  functions : List FunctionScope
  depth : Nat
  fresh : Nat

abbrev Reading := StateT Reader (Except SourceError)

namespace Reading

/-- The deepest nesting of statements and expressions. -/
def maxDepth : Nat := 199

def maxVariables : Nat := 200

def maxCaptures : Nat := 255

def failBare {α : Type} (message : Text) : Reading α := do
  throw ⟨(← get).line, message, none⟩

def failNear {α : Type} (message : Text) : Reading α := do
  let r ← get
  throw ⟨r.line, message, some r.current.shown⟩

def advance : Reading Unit := do
  let r ← get
  match r.ahead with
  | .ok next :: rest =>
    set { r with current := next, ahead := rest, lastLine := r.line, line := max r.line next.line }
  | .error e :: _ => throw e
  | [] => set { r with lastLine := r.line }

def peek : Reading Token := do
  let r ← get
  match r.ahead with
  | .ok next :: _ =>
    set { r with line := max r.line next.line }
    return next.token
  | .error e :: _ => throw e
  | [] => return .eof

def token : Reading Token := return (← get).current.token

def line : Reading Nat := return (← get).line

def atMark (m : String) : Reading Bool := return (← token) == .mark m

def atWord (w : String) : Reading Bool := return (← token) == .word w

/-- Skips the token if it is the given one. -/
def tryToken (t : Token) : Reading Bool := do
  if (← token) == t then
    advance
    return true
  else return false

def expected {α : Type} (t : Token) : Reading α :=
  failNear (t.described ++ text " expected")

def expect (t : Token) : Reading Unit := do
  unless ← tryToken t do expected t

/-- Expects the token that ends what `opener` began at the given line. -/
def expectClosing (t opener : Token) (start : Nat) : Reading Unit := do
  unless ← tryToken t do
    if (← line) = start then expected t
    else
      failNear (t.described ++ text " expected (to close " ++ opener.described
        ++ text (" at line " ++ toString start ++ ")"))

def name : Reading Text := do
  match ← token with
  | .name s =>
    advance
    return s
  | _ => expected (.name .empty)

def settled (e : Expr) : Reading Expr := return e.settle (← get).lastLine

def deeper {α : Type} (m : Reading α) : Reading α := do
  let r ← get
  if r.depth ≥ maxDepth then throw ⟨0, text "C stack overflow", none⟩
  set { r with depth := r.depth + 1 }
  let a ← m
  modify fun s => { s with depth := s.depth - 1 }
  return a

def freshId : Reading Nat := do
  let r ← get
  set { r with fresh := r.fresh + 1 }
  return r.fresh

def currentFunction : Reading FunctionScope := do
  return (← get).functions.head?.getD .openMain

def modifyFunction (f : FunctionScope → FunctionScope) : Reading Unit :=
  modify fun r => match r.functions with
    | [] => r
    | g :: outer => { r with functions := f g :: outer }

def checkLimit (count limit : Nat) (what : String) : Reading Unit := do
  if count > limit then
    failNear (text ("too many " ++ what ++ " (limit is " ++ toString limit ++ ") in "
      ++ (← currentFunction).place))

/-- Declares a variable that is not in force yet. -/
def declare (ident : Text) (kind : VariableKind) : Reading Unit := do
  let f ← currentFunction
  checkLimit (f.inForce.length + f.coming.length + 1) maxVariables "local variables"
  modifyFunction fun f => { f with coming := ⟨ident, kind, 0⟩ :: f.coming }

/-- Puts all declared variables in force and answers the first slot they take. -/
def activate : Reading Nat := do
  let base := (← currentFunction).usedSlots
  modifyFunction fun f =>
    let f := f.coming.reverse.foldl
      (fun f v => { f with inForce := { v with slot := f.usedSlots } :: f.inForce }) f
    { f with coming := [], slots := max f.slots f.usedSlots }
  return base

/-- Puts one new variable in force and answers its slot. -/
def declareActive (ident : Text) : Reading Nat := do
  declare ident .plain
  activate

def resolve (ident : Text) : Reading Resolution := do
  let r ← get
  let (found, functions) := resolveName ident r.functions
  set { r with functions := functions }
  checkLimit (← currentFunction).captured.size maxCaptures "upvalues"
  return found

/-- The expression that a name stands for; an unknown name is a field of the environment. -/
def variableExpr (ident : Text) : Reading Expr := do
  match ← resolve ident with
  | .slot i _ => return .slot i ident
  | .captured i _ => return .captured i ident
  | .known value => return .constant ident value
  | .environment =>
    let environment := text "_ENV"
    let base ← match ← resolve environment with
      | .slot i _ => pure (Expr.slot i environment)
      | .captured i _ => pure (Expr.captured i environment)
      | .known value => pure (Expr.constant environment value)
      | .environment => pure Expr.nil
    return .index base (.string ident) 0

/-- Refuses a read-only variable as a target. -/
def checkWritable (target : Expr) : Reading Unit := do
  let refuse (ident : Text) : Reading Unit :=
    failBare (text "attempt to assign to const variable " ++ quoted ident)
  match target with
  | .constant ident _ => refuse ident
  | .slot i ident =>
    let f ← currentFunction
    match f.inForce.find? (fun v => v.slot == i && v.name == ident) with
    | some v => match v.kind with
      | .readOnly => refuse ident
      | _ => pure ()
    | none => pure ()
  | .captured i ident =>
    if ((← currentFunction).captured[i]?).any (·.readOnly) then refuse ident
  | _ => pure ()

def openBlock : Reading Unit :=
  modifyFunction fun f => { f with blocks := ⟨f.inForce.length, [], []⟩ :: f.blocks }

/-- Binds the pending jumps of the innermost block to a label of that name. -/
def bindJumps (label : Label) : Reading Unit := do
  let f ← currentFunction
  match f.blocks with
  | [] => pure ()
  | b :: blocks =>
    let (bound, kept) := b.jumps.partition (·.name == label.name)
    match bound.find? (fun j => j.active < label.active) with
    | some j =>
      let ident := (f.inForce.reverse.drop j.active).head?.map (·.name)
      failBare (text "<goto " ++ label.name ++ text ("> at line " ++ toString j.line
        ++ " jumps into the scope of local ") ++ quoted (ident.getD .empty))
    | none =>
      modifyFunction fun f => { f with
        blocks := { b with jumps := kept } :: blocks
        resolved := bound.map (fun j => (j.id, label.id)) ++ f.resolved }

/-- Leaves a block; `exit` is the label that its breaks go to, if it is a loop. Jumps without a
label yet pass to the enclosing block. -/
def closeBlock (exit : Option Nat) : Reading Unit := do
  let f ← currentFunction
  match f.blocks with
  | [] => pure ()
  | b :: _ =>
    modifyFunction fun f => { f with
      inForce := f.inForce.drop (f.inForce.length - b.active) }
    match exit with
    | some id => bindJumps ⟨text "break", id, 0, b.active⟩
    | none => pure ()
    let f ← currentFunction
    match f.blocks with
    | b :: outer :: blocks =>
      let moved := b.jumps.map fun j => { j with active := min j.active b.active }
      modifyFunction fun f => { f with
        blocks := { outer with jumps := outer.jumps ++ moved } :: blocks }
    | [b] =>
      match b.jumps with
      | j :: _ =>
        if j.name == text "break" then
          failBare (text ("break outside loop at line " ++ toString j.line))
        else
          failBare (text "no visible label " ++ quoted j.name
            ++ text (" for <goto> at line " ++ toString j.line))
      | [] => modifyFunction fun f => { f with blocks := [] }
    | [] => pure ()

/-- The label of that name that the current point can see. -/
def visibleLabel (label : Text) : Reading (Option Label) := do
  return (← currentFunction).blocks.findSome? fun b => b.labels.find? (·.name == label)

def addJump (label : Text) (start : Nat) : Reading Stat := do
  let id ← freshId
  modifyFunction fun f => match f.blocks with
    | [] => f
    | b :: blocks =>
      { f with blocks := { b with jumps := b.jumps ++ [⟨label, id, start, f.inForce.length⟩] }
          :: blocks }
  return .jump id start

/-- Whether the token ends a block; `until` does so only if asked. -/
def atBlockEnd (withUntil : Bool) : Reading Bool := do
  match ← token with
  | .word "else" | .word "elseif" | .word "end" | .eof => return true
  | .word "until" => return withUntil
  | _ => return false

end Reading

end Grapnel.Guest
