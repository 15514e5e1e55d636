import Grapnel.Guest.Code

namespace Grapnel.Guest

/-- Code that is being written. A jump holds a mark until the marks are replaced by positions. -/
structure Assembly where
  source : Text
  code : Array Instr
  lines : Array Nat
  nested : Array Proto
  /-- What each jump of the source goes to. -/
  jumps : List (Nat × Nat)
  marks : List (Nat × Nat)
  fresh : Nat
deriving Inhabited

abbrev Assembling := StateM Assembly

namespace Assembling

def emit (line : Nat) (i : Instr) : Assembling Unit :=
  modify fun a => { a with code := a.code.push i, lines := a.lines.push line }

/-- A mark of the code itself; marks of the source are even, these are odd. -/
def freshMark : Assembling Nat := do
  let a ← get
  set { a with fresh := a.fresh + 1 }
  return 2 * a.fresh + 1

def place (mark : Nat) : Assembling Unit :=
  modify fun a => { a with marks := (mark, a.code.size) :: a.marks }

def addNested (p : Proto) : Assembling Nat := do
  let a ← get
  set { a with nested := a.nested.push p }
  return a.nested.size

def pushNils (line : Nat) : Nat → Assembling Unit
  | 0 => pure ()
  | n + 1 => do
    emit line (.push .nil)
    pushNils line n

end Assembling

namespace Instr

/-- Replaces the mark of a jump by a position. -/
def retarget (f : Nat → Nat) : Instr → Instr
  | .jump t => .jump (f t)
  | .jumpUnless t => .jumpUnless (f t)
  | .jumpKeepUnless t => .jumpKeepUnless (f t)
  | .jumpKeepIf t => .jumpKeepIf (f t)
  | .countPrep base t => .countPrep base (f t)
  | .countLoop base t => .countLoop base (f t)
  | .eachLoop base t => .eachLoop base (f t)
  | i => i

end Instr

namespace Expr

/-- The text of an expression that is a string while the source is read. -/
def text? : Expr → Option Text
  | .string s => some s
  | .constant _ value => value.text?
  | _ => none

/-- The name under which a message mentions the value of an expression. -/
def origin? : Expr → Option Origin
  | .slot _ name => some ⟨"local", name⟩
  | .captured _ name => some ⟨"upvalue", name⟩
  | .string s => some ⟨"constant", s⟩
  | .constant _ value => value.origin?
  | .paren inner => inner.origin?
  | .index object key _ =>
    match key.text? with
    | some s =>
      let environment := match object with
        | .slot _ name | .captured _ name => name == text "_ENV"
        | _ => false
      some ⟨if environment then "global" else "field", s⟩
    | none =>
      match key with
      | .numeral (.integer n) =>
        some ⟨"field", text (if 0 ≤ n && n ≤ 255 then "integer index" else "?")⟩
      | _ => some ⟨"field", text "?"⟩
  | _ => none

/-- An operand that needs no code of its own: a plain variable or a literal. -/
def immediate? : Expr → Option Operand
  | .slot i _ => some (.slot i)
  | .nil => some (.fixed .nil)
  | .boolean b => some (.fixed (.boolean b))
  | .numeral n => some (.fixed (Value.ofNumeral n))
  | .string s => some (.fixed (.string s))
  | .constant _ value => value.immediate?
  | .paren inner => inner.immediate?
  | _ => none

/-- The operand for the object of an access: with a text as key, a captured variable is read when
the access runs, too. -/
def object? (object key : Expr) : Option Operand :=
  match object, key.text? with
  | .captured i _, some _ => some (.captured i)
  | _, _ => object.immediate?

/-- The name for the right side of a concatenation, which may be one itself. -/
def firstOrigin? : Expr → Option Origin
  | .binary .concat inner _ _ => inner.origin?
  | e => e.origin?

end Expr

/-- How many list items a table starts with, except the values of an open last one. -/
def listedCount (items : List Item) : Nat :=
  let positional := items.countP fun item => match item with
    | .positional _ => true
    | .keyed .. => false
  match items.getLast? with
  | some (.positional e) => if e.isOpen then positional - 1 else positional
  | _ => positional

open Assembling

/-- Code that stores the values on top, for targets from the last to the first. -/
def compileStores (line : Nat) : List Expr → Assembling Unit
  | [] => pure ()
  | .slot i _ :: targets => do
    emit line (.storeSlot i)
    compileStores line targets
  | .captured i _ :: targets => do
    emit line (.storeCaptured i)
    compileStores line targets
  | .index object key _ :: targets => do
    emit line (.setIndex ((object.object? key).getD .stack) (key.immediate?.getD .stack)
      targets.length object.origin?)
    compileStores line targets
  | _ :: targets => do
    emit line .pop
    compileStores line targets

mutual

/-- Code for an expression. One that can have any number of values leaves `want` of them or, if that
is absent, all; any other leaves its one value. -/
def compileWanted (want : Option Nat) : Expr → Assembling Unit
  | .nil => emit 0 (.push .nil)
  | .boolean b => emit 0 (.push (.boolean b))
  | .numeral n => emit 0 (.push (Value.ofNumeral n))
  | .string s => emit 0 (.push (.string s))
  | .varargs => emit 0 (.varargs want)
  | .slot i _ => emit 0 (.loadSlot i)
  | .captured i _ => emit 0 (.loadCaptured i)
  | .constant _ value => compileWanted (some 1) value
  | .paren inner => compileWanted (some 1) inner
  | .index object key line => do
    if (object.object? key).isNone then compileWanted (some 1) object
    if key.immediate?.isNone then compileWanted (some 1) key
    emit line (.getIndex ((object.object? key).getD .stack) (key.immediate?.getD .stack)
      object.origin?)
  | .call callee args line => do
    compileWanted (some 1) callee
    let spread ← compileArgs args
    emit line (.call (args.length - (if spread then 1 else 0)) spread want callee.origin?)
  | .method object name args selfLine line => do
    if object.immediate?.isNone then compileWanted (some 1) object
    emit selfLine (.getMethod (object.immediate?.getD .stack) name object.origin?)
    let spread ← compileArgs args
    emit line (.call (args.length + 1 - (if spread then 1 else 0)) spread want
      (some ⟨"method", name⟩))
  | .function body => compileClosure body 0
  | .unary op operand line => do
    if operand.immediate?.isNone then compileWanted (some 1) operand
    emit line (.unary op (operand.immediate?.getD .stack) operand.origin?)
  | .binary .concat left right line => do
    compileWanted (some 1) left
    compileWanted (some 1) right
    emit line (.binary .concat .stack .stack left.origin? right.firstOrigin?)
  | .binary op left right line => do
    if left.immediate?.isNone then compileWanted (some 1) left
    if right.immediate?.isNone then compileWanted (some 1) right
    emit line (.binary op (left.immediate?.getD .stack) (right.immediate?.getD .stack)
      left.origin? right.origin?)
  | .both left right => do
    let done ← freshMark
    compileWanted (some 1) left
    emit 0 (.jumpKeepUnless done)
    compileWanted (some 1) right
    place done
  | .either left right => do
    let done ← freshMark
    compileWanted (some 1) left
    emit 0 (.jumpKeepIf done)
    compileWanted (some 1) right
    place done
  | .table items => do
    emit 0 (.newTable (listedCount items))
    compileItems items 1

/-- Code for a list of expressions; answers whether the last one was left open. -/
def compileArgs : List Expr → Assembling Bool
  | [] => return false
  | [e] => do
    if e.isOpen then
      compileWanted none e
      return true
    else
      compileWanted (some 1) e
      return false
  | e :: es => do
    compileWanted (some 1) e
    compileArgs es

/-- Code that leaves exactly `count` values of a list of expressions. -/
def compileAdjusted (count : Nat) : List Expr → Assembling Unit
  | [] => pushNils 0 count
  | [e] => do
    if e.isOpen then compileWanted (some count) e
    else
      compileWanted (some 1) e
      if count = 0 then emit 0 .pop else pushNils 0 (count - 1)
  | e :: es => do
    compileWanted (some 1) e
    if count = 0 then emit 0 .pop
    compileAdjusted (count - 1) es

/-- Code that puts items into the table on top, list items from position `next` on. -/
def compileItems : List Item → Nat → Assembling Unit
  | [], _ => pure ()
  | .keyed key value line :: items, next => do
    compileWanted (some 1) key
    compileWanted (some 1) value
    emit line .setField
    compileItems items next
  | [.positional e], next => do
    if e.isOpen then
      compileWanted none e
      emit 0 (.append next 0 true)
    else
      compileWanted (some 1) e
      emit 0 (.append next 1 false)
  | .positional e :: items, next => do
    compileWanted (some 1) e
    emit 0 (.append next 1 false)
    compileItems items (next + 1)

def compileClosure : Body → Nat → Assembling Unit
  | .mk signature block, line => do
    let outer ← get
    let start : Assembly :=
      ⟨outer.source, #[], #[], #[], signature.jumps, [], outer.fresh⟩
    let (_, a) := (compileBlock block).run start
    let code := a.code.push (.ret 0 false)
    let lines := a.lines.push signature.lastLine
    let find (mark : Nat) : Nat := (a.marks.lookup mark).getD 0
    let proto : Proto :=
      ⟨outer.source, signature, code.map (·.retarget find), lines, a.nested⟩
    let index ← addNested proto
    emit line (.closure index)

def compileBlock : List Stat → Assembling Unit
  | [] => pure ()
  | s :: rest => do
    compileStat s
    compileBlock rest

/-- Code that evaluates what assignment targets need before the values. -/
def compileTargets : List Expr → Assembling Unit
  | [] => pure ()
  | .index object key _ :: targets => do
    if (object.object? key).isNone then compileWanted (some 1) object
    if key.immediate?.isNone then compileWanted (some 1) key
    compileTargets targets
  | _ :: targets => compileTargets targets

def compileStat : Stat → Assembling Unit
  | .locals base count values line => do
    compileAdjusted count values
    emit line (.bind base count)
  | .assign targets values line => do
    compileTargets targets
    compileAdjusted targets.length values
    compileStores line targets.reverse
  | .expression e => do
    if e.isCall then compileWanted (some 0) e
    else
      compileWanted (some 1) e
      emit 0 .pop
  | .block body => compileBlock body
  | .whileLoop condition body exit line => do
    let again ← freshMark
    place again
    compileWanted (some 1) condition
    emit line (.jumpUnless (2 * exit))
    compileBlock body
    emit line (.jump again)
    place (2 * exit)
  | .repeatLoop body condition exit line => do
    let again ← freshMark
    place again
    compileBlock body
    compileWanted (some 1) condition
    emit line (.jumpUnless again)
    place (2 * exit)
  | .cond condition body otherwise line => do
    let other ← freshMark
    let done ← freshMark
    compileWanted (some 1) condition
    emit line (.jumpUnless other)
    compileBlock body
    emit line (.jump done)
    place other
    compileBlock otherwise
    place done
  | .countFor base start limit step body exit prepLine line => do
    compileWanted (some 1) start
    compileWanted (some 1) limit
    compileWanted (some 1) step
    emit prepLine (.bind base 3)
    emit prepLine (.countPrep base (2 * exit))
    let again ← freshMark
    place again
    compileBlock body
    emit line (.countLoop base again)
    place (2 * exit)
  | .eachFor base count values body exit prepLine line => do
    let again ← freshMark
    let enter ← freshMark
    compileAdjusted 4 values
    emit prepLine (.bind base 4)
    emit prepLine (.jump enter)
    place again
    compileBlock body
    place enter
    emit line (.eachCall base count)
    emit line (.eachLoop base again)
    place (2 * exit)
  | .localFunction slot body line => do
    emit line (.push .nil)
    emit line (.bind slot 1)
    compileClosure body line
    emit line (.storeSlot slot)
  | .ret values line => do
    match values with
    | [.call callee args callLine] =>
      compileWanted (some 1) callee
      let spread ← compileArgs args
      emit callLine (.tailCall (args.length - (if spread then 1 else 0)) spread callee.origin?)
      emit line (.ret 0 true)
    | [.method object name args selfLine callLine] =>
      if object.immediate?.isNone then compileWanted (some 1) object
      emit selfLine (.getMethod (object.immediate?.getD .stack) name object.origin?)
      let spread ← compileArgs args
      emit callLine (.tailCall (args.length + 1 - (if spread then 1 else 0)) spread
        (some ⟨"method", name⟩))
      emit line (.ret 0 true)
    | values =>
      let spread ← compileArgs values
      emit line (.ret (values.length - (if spread then 1 else 0)) spread)
  | .jump id line => do
    let jumps := (← get).jumps
    emit line (.jump (2 * (jumps.lookup id).getD 0))
  | .label id => place (2 * id)

end

/-- The code of a main function; `source` is the full name of its text. -/
def compile (source : Text) (body : Body) : Proto :=
  let start : Assembly := ⟨source, #[], #[], #[], [], [], 0⟩
  let (_, a) := (compileClosure body 0).run start
  a.nested.getD 0 default

end Grapnel.Guest
