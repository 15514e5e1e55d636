import Grapnel.Machine.Action

namespace Grapnel

open Guest

namespace BaseLibrary

/-- Raises a value; a text gets the position of the frame at the level in front of it. -/
def raise {α : Type} (value : Value) (level : Int) : Action α := do
  match value with
  | .string s => if 0 < level then Action.failAt level.toNat s else Action.fail value
  | _ => Action.fail value

def assert (c : NativeCall) : Action (List Value) := do
  if (← c.value 1).truthy then return c.args
  else raise (match c.arg? 2 with
    | some message => message
    | none => .ofString "assertion failed!") 1

def collect (c : NativeCall) : Action (List Value) := do
  let option ← c.stringOr 1 (text "collect")
  if option == text "count" then return [.float (Double.ofInt 64)]
  else if option == text "step" || option == text "isrunning" then return [.boolean true]
  else if ["collect", "stop", "restart", "setpause", "setstepmul"].any fun o => text o == option then
    return [.integer 0]
  else if option == text "generational" || option == text "incremental" then
    return [.ofString "incremental"]
  else c.refuse 1 (text "invalid option '" ++ option ++ text "'")

def getmetatable (c : NativeCall) : Action (List Value) := do
  let v ← c.value 1
  let heap ← Action.heap
  match heap.metatable? v with
  | none => return [.nil]
  | some t =>
    match (heap.table t).getString "__metatable" with
    | .nil => return [.table t]
    | shown => return [shown]

def setmetatable (c : NativeCall) : Action (List Value) := do
  let t ← c.table 1
  let metatable ← match c.arg? 2 with
    | some .nil => pure none
    | some (.table m) => pure (some m)
    | _ => c.refuseType 2 "nil or table"
  if (← Action.heap).event (.table t) "__metatable" != Value.nil then
    Action.failHere "cannot change a protected metatable"
  Action.modifyHeap (·.updateTable t fun table => { table with metatable })
  return [.table t]

/-- The texts of a reader function, up to the one that is empty or absent. -/
def readAll (reader : Value) : (fuel : Nat) → Text → Action Text
  | 0, source => return source
  | fuel + 1, source => do
    match (← Action.callBack reader []).headD .nil with
    | .nil => return source
    | v =>
      match v.text? with
      | some s => if s.isEmpty then return source else readAll reader fuel (source ++ s)
      | none => Action.failText (text "reader function must return a string")

/-- The main function of a compiled chunk, with its environment. -/
def closeChunk (proto : Proto) (environment : Value) : Action Value := do
  let cell ← Action.onHeap (·.newCell environment)
  Action.newFunction (.guest proto #[cell])

def load (c : NativeCall) : Action (List Value) := do
  let compiled ← match (c.arg 1).text? with
    | some source => do pure (Chunk.compile (untilNul (← c.stringOr 2 source)) source)
    | none => do
      let name ← c.stringOr 2 (text "=(load)")
      let reader ← c.function 1
      let source ← tryCatch (Except.ok <$> readAll (.function reader) 100000 .empty)
        fun error => pure (.error error)
      match source with
      | .ok source => pure (Chunk.compile (untilNul name) source)
      | .error error => return [.nil, error]
  match compiled with
  | .ok proto =>
    let globals := (← get).globals
    let environment := (c.arg? 4).getD (.table globals)
    return [← closeChunk proto environment]
  | .error message => return [.nil, .string message]

def next (c : NativeCall) : Action (List Value) := do
  let t ← c.table 1
  let table := (← Action.heap).table t
  let entry ← match c.arg 2 with
    | .nil => pure (table.next? none)
    | key => match Key.ofValue? key with
      | some k => pure (table.next? (some k))
      | none => pure none
  match entry with
  | some (some (k, v)) => return [k.toValue, v]
  | some none => return [.nil]
  | none => Action.failText (text "invalid key to 'next'")

def pairs (c : NativeCall) : Action (List Value) := do
  let v ← c.value 1
  match (← Action.heap).event v "__pairs" with
  | .nil => return [(← get).native (.base .next), v, .nil]
  | f =>
    let results ← Action.callBack f [v]
    return (results ++ List.replicate 3 Value.nil).take 3

def ipairs (c : NativeCall) : Action (List Value) := do
  let v ← c.value 1
  return [(← get).native (.base .ipairsStep), v, .integer 0]

def ipairsStep (c : NativeCall) : Action (List Value) := do
  let i := (← c.integer 2) + 1
  match ← Action.index (c.arg 1) (.integer i) with
  | .nil => return [.nil]
  | v => return [.integer i, v]

def rawlen (c : NativeCall) : Action (List Value) := do
  match c.arg 1 with
  | .table t => return [.ofNat ((← Action.heap).table t).border]
  | .string s => return [.ofNat s.size]
  | _ => c.refuseType 1 "table or string"

def rawset (c : NativeCall) : Action (List Value) := do
  let t ← c.table 1
  let key ← c.value 2
  let value ← c.value 3
  let place ← Action.settle (fun _ => default) (Heap.rawPlace t key)
  Action.modifyHeap (·.store place value)
  return [.table t]

def select (c : NativeCall) : Action (List Value) := do
  let count : Int := c.args.length
  let isCount := match c.arg 1 with
    | .string s => s.toList.head? == some 35
    | _ => false
  if isCount then return [.integer (Int64.ofInt (count - 1))]
  else
    let n ← c.int 1
    let n := if n < 0 then count + n else if count < n then count else n
    if n < 1 then c.refuseWith 1 "index out of range"
    else return c.args.drop n.toNat

/-- A whole number in a base, with blanks around it and wrapping. -/
def inBase (base : Nat) (s : List UInt8) : Option Int64 :=
  let (negative, s) := Numeral.sign (Numeral.dropBlanks s)
  let digits := s.takeWhile fun b => (digitValue? b).isSome
  let rest := s.drop digits.length
  if digits.isEmpty || !(Numeral.dropBlanks rest).isEmpty then none
  else
    let value? := digits.foldl
      (fun (n : Option Nat) b => n.bind fun n =>
        (digitValue? b).bind fun d => if d < base then some (n * base + d) else none) (some 0)
    value?.map fun n => Int64.ofInt (if negative then -(n : Int) else n)

def tonumber (c : NativeCall) : Action (List Value) := do
  if c.isAbsent 2 then
    match c.arg 1 with
    | .string s => return [((Numeral.read? s.toList).map Value.ofNumeral).getD .nil]
    | v =>
      if v.isNumber then return [v]
      else
        discard (c.value 1)
        return [.nil]
  else
    let base ← c.int 2
    match c.arg 1 with
    | .string s =>
      if base < 2 || 36 < base then c.refuseWith 2 "base out of range"
      else return [((inBase base.toNat s.toList).map Value.integer).getD .nil]
    | _ => c.refuseType 1 "string"

/-- Carries out a function of the library that calls nothing under protection. -/
def perform (f : BaseFunction) (c : NativeCall) : Action (List Value) := do
  match f with
  | .assert => assert c
  | .collect => collect c
  | .error => raise (c.arg 1) (← c.intOr 2 1)
  | .getmetatable => getmetatable c
  | .ipairs => ipairs c
  | .ipairsStep => ipairsStep c
  | .load => load c
  | .next => next c
  | .pairs => pairs c
  | .rawequal => return [.boolean ((← c.value 1).rawEq (← c.value 2))]
  | .rawget =>
    let t ← c.table 1
    return [((← Action.heap).table t).getValue (← c.value 2)]
  | .rawlen => rawlen c
  | .rawset => rawset c
  | .select => select c
  | .setmetatable => setmetatable c
  | .tonumber => tonumber c
  | .tostring => return [.string (← Action.toText (← c.value 1))]
  | .type => return [.ofString (← c.value 1).typeName]
  | .pcall | .xpcall => return []

end BaseLibrary

end Grapnel
