import Grapnel.Guest.Reader

namespace Grapnel.Guest

namespace Reading

def unaryOp? : Token → Option UnaryOp
  | .word "not" => some .not
  | .mark "-" => some .negate
  | .mark "~" => some .complement
  | .mark "#" => some .length
  | _ => none

/-- A binary operator or one of the two that may skip their right operand. -/
inductive Operator where
  | strict (op : BinaryOp)
  | both
  | either

/-- The operator with how strongly it binds to the left and to the right. -/
def operator? : Token → Option (Operator × Nat × Nat)
  | .mark "+" => some (.strict .add, 10, 10)
  | .mark "-" => some (.strict .sub, 10, 10)
  | .mark "*" => some (.strict .mul, 11, 11)
  | .mark "%" => some (.strict .mod, 11, 11)
  | .mark "^" => some (.strict .pow, 14, 13)
  | .mark "/" => some (.strict .div, 11, 11)
  | .mark "//" => some (.strict .floorDiv, 11, 11)
  | .mark "&" => some (.strict .bitAnd, 6, 6)
  | .mark "|" => some (.strict .bitOr, 4, 4)
  | .mark "~" => some (.strict .bitXor, 5, 5)
  | .mark "<<" => some (.strict .shiftLeft, 7, 7)
  | .mark ">>" => some (.strict .shiftRight, 7, 7)
  | .mark ".." => some (.strict .concat, 9, 8)
  | .mark "==" => some (.strict .eq, 3, 3)
  | .mark "~=" => some (.strict .ne, 3, 3)
  | .mark "<" => some (.strict .lt, 3, 3)
  | .mark "<=" => some (.strict .le, 3, 3)
  | .mark ">" => some (.strict .gt, 3, 3)
  | .mark ">=" => some (.strict .ge, 3, 3)
  | .word "and" => some (.both, 2, 2)
  | .word "or" => some (.either, 1, 1)
  | _ => none

def unaryPriority : Nat := 12

def exhausted {α : Type} : Reading α := failBare (text "chunk has too many syntax levels")

/-- Whether an expression may be assigned to. -/
def isTarget : Expr → Bool
  | .slot .. | .captured .. | .constant .. | .index .. => true
  | _ => false

mutual

def expression : Nat → Reading Expr
  | 0 => exhausted
  | fuel + 1 => do return (← operand fuel 0).1

/-- An expression whose operators bind to the left more strongly than `limit`, and the token after
it. -/
def operand : Nat → Nat → Reading (Expr × Token)
  | 0, _ => exhausted
  | fuel + 1, limit => deeper do
    let first ← match unaryOp? (← token) with
      | some op => do
        let start ← line
        advance
        let (e, _) ← operand fuel unaryPriority
        pure (Expr.unary op (← settled e) start)
      | none => simple fuel
    let e ← operators fuel limit first
    return (e, ← token)

def operators : Nat → Nat → Expr → Reading Expr
  | 0, _, _ => exhausted
  | fuel + 1, limit, left => do
    match operator? (← token) with
    | some (op, leftPriority, rightPriority) =>
      if leftPriority > limit then
        let start ← line
        advance
        let left ← settled left
        let (right, _) ← operand fuel rightPriority
        let right ← settled right
        let e := match op with
          | .strict op =>
            let stop := match op with
              | .eq | .ne | .lt | .le | .gt | .ge => true
              | _ => false
            (start, stop, Expr.binary op left right start)
          | .both => (start, false, Expr.both left right)
          | .either => (start, false, Expr.either left right)
        let e ← match e with
          | (_, true, .binary op left right _) =>
            pure (Expr.binary op left right (← get).lastLine)
          | (_, _, e) => pure e
        operators fuel limit e
      else return left
    | none => return left

def simple : Nat → Reading Expr
  | 0 => exhausted
  | fuel + 1 => do
    match ← token with
    | .numeral n => advance; return .numeral n
    | .string s => advance; return .string s
    | .word "nil" => advance; return .nil
    | .word "true" => advance; return .boolean true
    | .word "false" => advance; return .boolean false
    | .mark "..." =>
      unless (← currentFunction).variadic do
        failNear (text "cannot use '...' outside a vararg function")
      advance
      return .varargs
    | .mark "\x7b" => tableConstructor fuel
    | .word "function" =>
      advance
      return .function (← functionBody fuel false (← line))
    | _ => suffixed fuel

def primary : Nat → Reading Expr
  | 0 => exhausted
  | fuel + 1 => do
    match ← token with
    | .name s =>
      advance
      variableExpr s
    | .mark "(" =>
      let start ← line
      advance
      let e ← expression fuel
      expectClosing (.mark ")") (.mark "(") start
      return .paren (← settled e)
    | _ => failNear (text "unexpected symbol")

def suffixed : Nat → Reading Expr
  | 0 => exhausted
  | fuel + 1 => do suffixes fuel (← primary fuel)

def suffixes : Nat → Expr → Reading Expr
  | 0, _ => exhausted
  | fuel + 1, e => do
    match ← token with
    | .mark "." =>
      let e ← settled e
      advance
      let field ← name
      suffixes fuel (.index e (.string field) 0)
    | .mark "[" =>
      let e ← settled e
      suffixes fuel (.index e (← bracketed fuel) 0)
    | .mark ":" =>
      advance
      let field ← name
      let selfLine := (← get).lastLine
      let start ← line
      let args ← arguments fuel
      suffixes fuel (.method (e.settle selfLine) field args selfLine start)
    | .mark "(" | .mark "\x7b" | .string _ =>
      let e ← settled e
      let start ← line
      let args ← arguments fuel
      suffixes fuel (.call e args start)
    | _ => return e

def bracketed : Nat → Reading Expr
  | 0 => exhausted
  | fuel + 1 => do
    advance
    let e ← settled (← expression fuel)
    expect (.mark "]")
    return e

def arguments : Nat → Reading (List Expr)
  | 0 => exhausted
  | fuel + 1 => do
    match ← token with
    | .string s => advance; return [.string s]
    | .mark "\x7b" => return [← tableConstructor fuel]
    | .mark "(" =>
      let start ← line
      advance
      if ← atMark ")" then
        advance
        return []
      else
        let es ← expressions fuel
        expectClosing (.mark ")") (.mark "(") start
        let last := (← get).lastLine
        return es.mapIdx fun i e => if i + 1 = es.length then e.settle last else e
    | _ => failNear (text "function arguments expected")

/-- Expressions separated by commas; the last one is not settled. -/
def expressions : Nat → Reading (List Expr)
  | 0 => exhausted
  | fuel + 1 => do
    let e ← expression fuel
    if ← tryToken (.mark ",") then
      let e ← settled e
      return e :: (← expressions fuel)
    else return [e]

def tableConstructor : Nat → Reading Expr
  | 0 => exhausted
  | fuel + 1 => do
    let start ← line
    expect (.mark "\x7b")
    let items ← tableItems fuel
    expectClosing (.mark "\x7d") (.mark "\x7b") start
    let last := (← get).lastLine
    return .table (items.mapIdx fun i item => match item with
      | .positional e => if i + 1 = items.length then .positional (e.settle last) else item
      | item => item)

def tableItems : Nat → Reading (List Item)
  | 0 => exhausted
  | fuel + 1 => do
    if ← atMark "\x7d" then return []
    let named ← match ← token with
      | .name _ => pure ((← peek) == .mark "=")
      | _ => pure false
    let item ←
      if named then do
        let field ← name
        expect (.mark "=")
        let value ← settled (← expression fuel)
        pure (Item.keyed (.string field) value (← get).lastLine)
      else if ← atMark "[" then do
        let key ← bracketed fuel
        expect (.mark "=")
        let value ← settled (← expression fuel)
        pure (Item.keyed key value (← get).lastLine)
      else do
        pure (Item.positional (← expression fuel))
    let separated ← do
      if ← tryToken (.mark ",") then pure true else tryToken (.mark ";")
    let last := (← get).lastLine
    let item := match item with
      | .positional e => if separated then .positional (e.settle last) else item
      | item => item
    if separated then return item :: (← tableItems fuel) else return [item]

/-- Parameters and statements of a function. -/
def functionBody : Nat → Bool → Nat → Reading Body
  | 0, _, _ => exhausted
  | fuel + 1, isMethod, start => do
    modify fun r => { r with functions := .openAt start :: r.functions }
    expect (.mark "(")
    if isMethod then let _ ← declareActive (text "self")
    unless ← atMark ")" do parameters fuel
    let _ ← activate
    let params := (← currentFunction).inForce.length
    expect (.mark ")")
    let block ← statements fuel
    let lastLine ← line
    expectClosing (.word "end") (.word "function") start
    closeBlock none
    let f ← currentFunction
    modify fun r => { r with functions := r.functions.drop 1 }
    return .mk ⟨start, lastLine, params, f.variadic, f.slots, f.captured.map (·.capture),
      f.resolved⟩ block

def parameters : Nat → Reading Unit
  | 0 => exhausted
  | fuel + 1 => do
    match ← token with
    | .name s =>
      advance
      declare s .plain
      if ← tryToken (.mark ",") then parameters fuel
    | .mark "..." =>
      advance
      modifyFunction fun f => { f with variadic := true }
    | _ => failNear (text "<name> or '...' expected")

/-- Statements up to the end of the block. -/
def statements : Nat → Reading (List Stat)
  | 0 => exhausted
  | fuel + 1 => do
    if ← atBlockEnd true then return []
    if ← atWord "return" then return ← statement fuel
    let first ← statement fuel
    return first ++ (← statements fuel)

/-- A block of its own; `exit` as for `closeBlock`. -/
def block : Nat → Option Nat → Reading (List Stat)
  | 0, _ => exhausted
  | fuel + 1, exit => do
    openBlock
    let body ← statements fuel
    closeBlock exit
    return body

/-- One statement, as none or more tree nodes. -/
def statement : Nat → Reading (List Stat)
  | 0 => exhausted
  | fuel + 1 => deeper do
    let start ← line
    match ← token with
    | .mark ";" => advance; return []
    | .word "if" =>
      advance
      return [← ifArms fuel start]
    | .word "while" =>
      advance
      let condition ← settled (← expression fuel)
      let exit ← freshId
      openBlock
      expect (.word "do")
      let body ← block fuel none
      expectClosing (.word "end") (.word "while") start
      closeBlock (some exit)
      return [.whileLoop condition body exit start]
    | .word "do" =>
      advance
      let body ← block fuel none
      expectClosing (.word "end") (.word "do") start
      return [.block body]
    | .word "for" => forStatement fuel start
    | .word "repeat" =>
      let exit ← freshId
      openBlock
      openBlock
      advance
      let body ← statements fuel
      expectClosing (.word "until") (.word "repeat") start
      let condition ← settled (← expression fuel)
      closeBlock none
      closeBlock (some exit)
      return [.repeatLoop body condition exit start]
    | .word "function" =>
      advance
      let first ← variableExpr (← name)
      let (target, isMethod) ← functionName fuel first
      let body ← functionBody fuel isMethod start
      checkWritable target
      return [.assign [target] [.function body] start]
    | .word "local" =>
      advance
      if ← tryToken (.word "function") then
        let slot ← declareActive (← name)
        let body ← functionBody fuel false (← line)
        return [.localFunction slot body (← get).lastLine]
      else localStatement fuel
    | .mark "::" =>
      advance
      let label ← name
      expect (.mark "::")
      let skipped ← emptyStatements fuel
      if let some earlier ← visibleLabel label then
        failBare (text "label " ++ quoted label
          ++ text (" already defined on line " ++ toString earlier.line))
      let id ← freshId
      let f ← currentFunction
      let active := if ← atBlockEnd false then (f.blocks.head?.map (·.active)).getD 0
        else f.inForce.length
      let entry : Label := ⟨label, id, start, active⟩
      modifyFunction fun f => match f.blocks with
        | [] => f
        | b :: blocks => { f with blocks := { b with labels := entry :: b.labels } :: blocks }
      bindJumps entry
      return skipped ++ [.label id]
    | .word "return" =>
      advance
      let values ← do
        if (← atBlockEnd true) || (← atMark ";") then pure []
        else do
          let es ← expressions fuel
          let last := (← get).lastLine
          pure (es.map (·.settle last))
      let last := (← get).lastLine
      let _ ← tryToken (.mark ";")
      return [.ret values last]
    | .word "break" =>
      advance
      return [← addJump (text "break") start]
    | .word "goto" =>
      advance
      let label ← name
      match ← visibleLabel label with
      | some found =>
        let id ← freshId
        modifyFunction fun f => { f with resolved := (id, found.id) :: f.resolved }
        return [.jump id start]
      | none => return [← addJump label start]
    | _ =>
      let e ← suffixed fuel
      if (← atMark "=") || (← atMark ",") then
        let (targets, values) ← assignment fuel e
        return [.assign targets values (← get).lastLine]
      else
        unless e.isCall do failNear (text "syntax error")
        return [.expression e]

/-- Empty statements and labels after a label. -/
def emptyStatements : Nat → Reading (List Stat)
  | 0 => exhausted
  | fuel + 1 => do
    if (← atMark ";") || (← atMark "::") then
      let first ← statement fuel
      return first ++ (← emptyStatements fuel)
    else return []

/-- The rest of a conditional after its first word. -/
def ifArms : Nat → Nat → Reading Stat
  | 0, _ => exhausted
  | fuel + 1, start => do
    let condition ← settled (← expression fuel)
    let conditionLine := (← get).lastLine
    expect (.word "then")
    let body ← block fuel none
    if ← tryToken (.word "elseif") then
      return .cond condition body [← ifArms fuel start] conditionLine
    else
      let otherwise ← do
        if ← tryToken (.word "else") then block fuel none else pure []
      expectClosing (.word "end") (.word "if") start
      return .cond condition body otherwise conditionLine

/-- The rest of a function's name: fields, and at the end a method. -/
def functionName : Nat → Expr → Reading (Expr × Bool)
  | 0, _ => exhausted
  | fuel + 1, e => do
    if ← atMark "." then
      let e ← settled e
      advance
      functionName fuel (.index e (.string (← name)) 0)
    else if ← atMark ":" then
      let e ← settled e
      advance
      return (.index e (.string (← name)) 0, true)
    else return (e, false)

def localNames : Nat → Reading (List VariableKind)
  | 0 => exhausted
  | fuel + 1 => do
    let ident ← name
    let kind ← do
      if ← tryToken (.mark "<") then
        let mark ← name
        expect (.mark ">")
        if mark == text "const" || mark == text "close" then pure VariableKind.readOnly
        else failBare (text "unknown attribute " ++ quoted mark)
      else pure VariableKind.plain
    declare ident kind
    if ← tryToken (.mark ",") then return kind :: (← localNames fuel) else return [kind]

def localStatement : Nat → Reading (List Stat)
  | 0 => exhausted
  | fuel + 1 => do
    let kinds ← localNames fuel
    let values ← do
      if ← tryToken (.mark "=") then expressions fuel else pure []
    let last := (← get).lastLine
    let values := values.map (·.settle last)
    let count := kinds.length
    let known := match kinds.getLast?, values.getLast? with
      | some .readOnly, some e => if values.length = count then e.literal? else none
      | _, _ => none
    match known with
    | some value =>
      modifyFunction fun f => match f.coming with
        | v :: coming => { f with coming := { v with kind := .known value } :: coming }
        | [] => f
      let base ← activate
      return [.locals base (count - 1) values last]
    | none =>
      let base ← activate
      return [.locals base count values last]

/-- The rest of an assignment after its first target. -/
def assignment : Nat → Expr → Reading (List Expr × List Expr)
  | 0, _ => exhausted
  | fuel + 1, target => do
    unless isTarget target do failNear (text "syntax error")
    checkWritable target
    if ← tryToken (.mark ",") then
      let next ← suffixed fuel
      let (targets, values) ← deeper (assignment fuel next)
      return (target :: targets, values)
    else
      expect (.mark "=")
      let values ← expressions fuel
      let last := (← get).lastLine
      return ([target], values.map (·.settle last))

def forStatement : Nat → Nat → Reading (List Stat)
  | 0, _ => exhausted
  | fuel + 1, start => do
    let exit ← freshId
    openBlock
    advance
    let first ← name
    let hidden := text "(for state)"
    let loop ← do
      match ← token with
      | .mark "=" =>
        for _ in [0, 1, 2] do declare hidden .plain
        let base := (← currentFunction).usedSlots
        advance
        let from_ ← settled (← expression fuel)
        expect (.mark ",")
        let limit ← settled (← expression fuel)
        let step ← do
          if ← tryToken (.mark ",") then settled (← expression fuel)
          else pure (Expr.numeral (.integer 1))
        let _ ← activate
        expect (.word "do")
        let prepLine := (← get).lastLine
        openBlock
        let _ ← declareActive first
        let body ← block fuel none
        closeBlock none
        pure (Stat.countFor base from_ limit step body exit prepLine start)
      | .mark "," | .word "in" =>
        for _ in [0, 1, 2, 3] do declare hidden .plain
        let names ← moreNames fuel
        expect (.word "in")
        let start ← line
        let values ← expressions fuel
        let last := (← get).lastLine
        let values := values.map (·.settle last)
        let base ← activate
        expect (.word "do")
        let prepLine := (← get).lastLine
        openBlock
        for ident in first :: names do declare ident .plain
        let _ ← activate
        let body ← block fuel none
        closeBlock none
        pure (Stat.eachFor base (names.length + 1) values body exit prepLine start)
      | _ => failNear (text "'=' or 'in' expected")
    expectClosing (.word "end") (.word "for") start
    closeBlock (some exit)
    return [loop]

def moreNames : Nat → Reading (List Text)
  | 0 => exhausted
  | fuel + 1 => do
    if ← tryToken (.mark ",") then
      let ident ← name
      return ident :: (← moreNames fuel)
    else return []

end

def chunk (fuel : Nat) : Reading Body := do
  let block ← statements fuel
  let lastLine ← line
  unless (← token) == .eof do expected .eof
  closeBlock none
  let f ← currentFunction
  return .mk ⟨0, lastLine, 0, true, f.slots, f.captured.map (·.capture), f.resolved⟩ block

end Reading

/-- The main function that a source text describes. -/
def parse (source : Text) : Except SourceError Body :=
  match Scanner.scan source with
  | .ok first :: ahead =>
    let start : Reader :=
      { current := first, ahead := ahead, line := first.line, lastLine := 1,
        functions := [.openMain], depth := 0, fresh := 0 }
    (Reading.chunk (16 * (ahead.length + 8))).run' start
  | .error e :: _ => .error e
  | [] => .error ⟨1, text "unexpected symbol", some (text "<eof>")⟩

end Grapnel.Guest
