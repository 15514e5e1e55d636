import Grapnel.Machine.Action

namespace Grapnel

open Guest

namespace ListLibrary

/-- Refuses what is no table and does not behave like one. -/
def checkList (c : NativeCall) (i : Nat) (events : List String) : Action Unit := do
  match c.arg i with
  | .table _ => pure ()
  | v =>
    let heap ← Action.heap
    if (heap.metatable? v).isNone || events.any fun e => heap.event v e == Value.nil then
      c.refuseType i "table"

def lengthOf (c : NativeCall) (events : List String) : Action Int := do
  checkList c 1 ("__len" :: events)
  Action.lengthOf (c.arg 1)

/-- Moves the items from `from'` up to `last` one place up, the last one first. -/
def shiftUp (list : Value) (last : Int) : (count : Nat) → Action Unit
  | 0 => pure ()
  | count + 1 => do
    Action.assignNat list (last + 1) (← Action.indexNat list last)
    shiftUp list (last - 1) count

/-- Moves `count` items one place down, from the one after `first` on. -/
def shiftDown (list : Value) (first : Int) : (count : Nat) → Action Unit
  | 0 => pure ()
  | count + 1 => do
    Action.assignNat list first (← Action.indexNat list (first + 1))
    shiftDown list (first + 1) count

def insert (c : NativeCall) : Action (List Value) := do
  let list := c.arg 1
  let after := (← lengthOf c ["__index", "__newindex"]) + 1
  match c.args.length with
  | 2 => Action.assignNat list after (c.arg 2)
  | 3 =>
    let position ← c.int 2
    if position < 1 || after < position then c.refuseWith 2 "position out of bounds"
    shiftUp list (after - 1) (after - position).toNat
    Action.assignNat list position (c.arg 3)
  | _ => Action.failHere "wrong number of arguments to 'insert'"
  return []

def remove (c : NativeCall) : Action (List Value) := do
  let list := c.arg 1
  let size ← lengthOf c ["__index", "__newindex"]
  let position ← c.intOr 2 size
  if position ≠ size && (position < 1 || size + 1 < position) then
    c.refuseWith 2 "position out of bounds"
  let value ← Action.indexNat list position
  shiftDown list position (size - position).toNat
  Action.assignNat list (max position size) .nil
  return [value]

def concat (c : NativeCall) : Action (List Value) := do
  let list := c.arg 1
  let size ← lengthOf c ["__index"]
  let separator ← c.stringOr 2 .empty
  let first ← c.intOr 3 1
  let last ← c.intOr 4 size
  let rec join : (count : Nat) → (i : Int) → Text → Action Text
    | 0, _, done => return done
    | count + 1, i, done => do
      let v ← Action.indexNat list i
      match v.text? with
      | none =>
        Action.failHere ("invalid value (" ++ v.typeName ++ ") at index " ++ toString i
          ++ " in table for 'concat'")
      | some s => join count (i + 1) (done ++ s ++ if count = 0 then .empty else separator)
  return [.string (← join (last - first + 1).toNat first .empty)]

def maxResults : Int := 1000000

def unpack (c : NativeCall) : Action (List Value) := do
  let list := c.arg 1
  let first ← c.intOr 2 1
  let last ← if c.isAbsent 3 then Action.lengthOf list else c.int 3
  if last < first then return []
  else if maxResults ≤ last - first then Action.failHere "too many results to unpack"
  else
    let count := (last - first + 1).toNat
    (List.range count).mapM fun i => Action.indexNat list (first + Int.ofNat i)

def pack (c : NativeCall) : Action (List Value) := do
  let list ← Action.newList c.args
  match list with
  | .table t =>
    Action.modifyHeap (·.updateTable t (·.set (.string (text "n")) (.ofNat c.args.length)))
  | _ => pure ()
  return [list]

def move (c : NativeCall) : Action (List Value) := do
  let first ← c.int 2
  let last ← c.int 3
  let target ← c.int 4
  let destination := if c.isAbsent 5 then 1 else 5
  checkList c 1 ["__index"]
  checkList c destination ["__newindex"]
  let source := c.arg 1
  let list := c.arg destination
  if first ≤ last then
    if !(0 < first || last < 2 ^ 63 - 1 + first) then c.refuseWith 3 "too many elements to move"
    let count := (last - first + 1).toNat
    if 2 ^ 63 - (count : Int) < target then c.refuseWith 4 "destination wrap around"
    let overlapsAfter := first < target && target ≤ last && (destination = 1 || source.rawEq list)
    let order := if overlapsAfter then (List.range count).reverse else List.range count
    order.forM fun i => do
      Action.assignNat list (target + Int.ofNat i) (← Action.indexNat source (first + Int.ofNat i))
  return [list]

/-- Whether the first value comes before the second one. -/
def before (order : Value) (a b : Value) : Action Bool := do
  match order with
  | .nil => Action.lessThan a b
  | f => return ((← Action.callBack f [a, b]).headD .nil).truthy

def swap (list : Value) (i j : Int) (a b : Value) : Action Unit := do
  Action.assignNat list i b
  Action.assignNat list j a

/-- The first position from `i` on whose item does not come before the pivot. -/
def scanUp (list order pivot : Value) (last : Int) : (fuel : Nat) → (i : Int) →
    Action (Int × Value)
  | 0, i => return (i, .nil)
  | fuel + 1, i => do
    let v ← Action.indexNat list i
    if ← before order v pivot then
      if i = last then Action.failHere "invalid order function for sorting"
      else scanUp list order pivot last fuel (i + 1)
    else return (i, v)

/-- The last position up to `j` whose item the pivot does not come before. -/
def scanDown (list order pivot : Value) (first : Int) : (fuel : Nat) → (j : Int) →
    Action (Int × Value)
  | 0, j => return (j, .nil)
  | fuel + 1, j => do
    let v ← Action.indexNat list j
    if ← before order pivot v then
      if j < first then Action.failHere "invalid order function for sorting"
      else scanDown list order pivot first fuel (j - 1)
    else return (j, v)

/-- Parts the items between the ends around the pivot, which stands before the upper end; answers
where the pivot ends up. -/
def partition (list order pivot : Value) (up : Int) : (fuel : Nat) → (i j : Int) → Action Int
  | 0, i, _ => return i
  | fuel + 1, i, j => do
    let size := (up - i).toNat + 2
    let (i, a) ← scanUp list order pivot (up - 1) size (i + 1)
    let (j, b) ← scanDown list order pivot i ((j - i).toNat + 3) (j - 1)
    if j < i then
      swap list (up - 1) i pivot a
      return i
    else
      swap list i j a b
      partition list order pivot up fuel i j

/-- Puts the items at two positions in order. -/
def order₂ (list order : Value) (i j : Int) : Action Bool := do
  let a ← Action.indexNat list i
  let b ← Action.indexNat list j
  if ← before order b a then
    swap list i j a b
    return true
  else return false

/-- Sorts the items between two positions around the median of three. -/
def sortBetween (list order : Value) : (fuel : Nat) → (lo up : Int) → Action Unit
  | 0, _, _ => pure ()
  | fuel + 1, lo, up => do
    if lo < up then
      discard (order₂ list order lo up)
      if up - lo = 1 then return
      let p := (lo + up) / 2
      if !(← order₂ list order lo p) then discard (order₂ list order p up)
      if up - lo = 2 then return
      let pivot ← Action.indexNat list p
      let other ← Action.indexNat list (up - 1)
      swap list p (up - 1) pivot other
      let p ← partition list order pivot up (up - lo).toNat lo (up - 1)
      if p - lo < up - p then
        sortBetween list order fuel lo (p - 1)
        sortBetween list order fuel (p + 1) up
      else
        sortBetween list order fuel (p + 1) up
        sortBetween list order fuel lo (p - 1)

def sort (c : NativeCall) : Action (List Value) := do
  let size ← lengthOf c ["__index", "__newindex"]
  if 1 < size then
    if 2 ^ 31 - 1 ≤ size then c.refuseWith 1 "array too big"
    if !c.isAbsent 2 then discard (c.function 2)
    sortBetween (c.arg 1) (c.arg 2) size.toNat 1 size
  return []

def perform (f : TableFunction) (c : NativeCall) : Action (List Value) :=
  match f with
  | .concat => concat c
  | .insert => insert c
  | .move => move c
  | .pack => pack c
  | .remove => remove c
  | .sort => sort c
  | .unpack => unpack c

end ListLibrary

end Grapnel
