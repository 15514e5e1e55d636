import Grapnel.Machine.Action

namespace Grapnel

open Guest

namespace MathLibrary

/-- A float that is whole as an integer, if it fits. -/
def ofWhole (x : Double) : Value :=
  match x.toInteger? with
  | some n => .integer n
  | none => .float x

def rounded (round : Double → Double) (c : NativeCall) : Action (List Value) := do
  match c.arg 1 with
  | .integer n => return [.integer n]
  | _ => return [ofWhole (round (← c.double 1))]

def elementary (f : Float → Float) (c : NativeCall) : Action (List Value) := do
  return [.float (Double.lift₁ f (← c.double 1))]

/-- The argument that no other one comes before. -/
def extreme (isMax : Bool) (c : NativeCall) : Action (List Value) := do
  let first ← c.value 1
  let best ← (c.args.drop 1).foldlM (fun best v => do
    let better ← if isMax then Action.lessThan best v else Action.lessThan v best
    return if better then v else best) first
  return [best]

def fmod (c : NativeCall) : Action (List Value) := do
  match c.arg 1, c.arg 2 with
  | .integer a, .integer b =>
    if b = 0 then c.refuseWith 2 "zero"
    else return [.integer (Int64.ofInt (Int.tmod a.toInt b.toInt))]
  | _, _ =>
    let x ← c.double 1
    return [.float (x.rem (← c.double 2))]

def modf (c : NativeCall) : Action (List Value) := do
  match c.arg 1 with
  | .integer n => return [.float (Double.ofInt n.toInt), .float Double.zero]
  | _ =>
    let x ← c.double 1
    let whole := if x.signBit then x.ceil else x.floor
    let rest := if x.isInfinite then Double.zero else x.sub whole
    return [.float whole, .float rest]

def log (c : NativeCall) : Action (List Value) := do
  let x ← c.double 1
  if c.isAbsent 2 then return [.float (Double.lift₁ Float.log x)]
  else
    let base ← c.double 2
    if base == Double.ofInt 2 then return [.float (Double.lift₁ Float.log2 x)]
    else if base == Double.ofInt 10 then return [.float (Double.lift₁ Float.log10 x)]
    else return [.float ((Double.lift₁ Float.log x).div (Double.lift₁ Float.log base))]

def tointeger (c : NativeCall) : Action (List Value) := do
  match ((← c.value 1).coerced?).bind fun n => (Value.ofNumeral n).whole? with
  | some n => return [.integer n]
  | none => return [.nil]

def perform (f : MathFunction) (c : NativeCall) : Action (List Value) := do
  match f with
  | .abs =>
    match c.arg 1 with
    | .integer n => return [.integer (if n < 0 then -n else n)]
    | _ => return [.float (← c.double 1).abs]
  | .ceil => rounded Double.ceil c
  | .floor => rounded Double.floor c
  | .fmod => fmod c
  | .max => extreme true c
  | .min => extreme false c
  | .modf => modf c
  | .sqrt => elementary Float.sqrt c
  | .tointeger => tointeger c
  | .type =>
    match ← c.value 1 with
    | .integer _ => return [.ofString "integer"]
    | .float _ => return [.ofString "float"]
    | _ => return [.nil]
  | .ult => return [.boolean ((← c.integer 1).toUInt64 < (← c.integer 2).toUInt64)]
  | .exp => elementary Float.exp c
  | .log => log c
  | .sin => elementary Float.sin c
  | .cos => elementary Float.cos c
  | .tan => elementary Float.tan c
  | .asin => elementary Float.asin c
  | .acos => elementary Float.acos c
  | .atan =>
    let y ← c.double 1
    let x ← if c.isAbsent 2 then pure (Double.ofInt 1) else c.double 2
    return [.float (Double.lift₂ Float.atan2 y x)]

end MathLibrary

end Grapnel
