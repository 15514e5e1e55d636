import Grapnel.Memory.Region
import Grapnel.Process.Fault

namespace Grapnel

namespace Maps

/-- The next field, up to a space, and what follows it. -/
def nextField? (s : List Char) : Option (List Char × List Char) :=
  match Text.trimStart s with
  | [] => none
  | s => some (s.takeWhile (· ≠ ' '), s.dropWhile (· ≠ ' '))

/-- The fields of a line; the device and the inode are not kept. -/
structure Fields where
  range : List Char
  permissions : List Char
  offset : List Char
  rest : List Char

def field (reason : String) (s : List Char) : Except String (List Char × List Char) :=
  match nextField? s with
  | some x => .ok x
  | none => .error reason

def fields (line : List Char) : Except String Fields := do
  let (range, rest) ← field "missing address range" line
  let (permissions, rest) ← field "missing permissions" rest
  let (offset, rest) ← field "missing offset" rest
  let (_, rest) ← field "missing device" rest
  let (_, rest) ← field "missing inode" rest
  return ⟨range, permissions, offset, rest⟩

def word (reason : String) (s : List Char) : Except String UInt64 :=
  match Hexadecimal.read? wordLimit s with
  | some n => .ok (UInt64.ofNat n)
  | none => .error reason

/-- The two ends of a range, which is not empty. -/
def range (s : List Char) : Except String (Address × Address) := do
  match s.dropWhile (· ≠ '-') with
  | [] => throw "address range without separator"
  | _ :: stop =>
    let start ← word "invalid start address" (s.takeWhile (· ≠ '-'))
    let stop ← word "invalid end address" stop
    if stop ≤ start then throw "empty address range"
    return (⟨start⟩, ⟨stop⟩)

/-- Rights, and whether the mapping is shared, which the fourth byte tells. -/
def permissions (s : List Char) : Except String (Access × Bool) := do
  let s := String.ofList s
  match Access.ofText? s with
  | none => throw "invalid permissions"
  | some access =>
    match (s.toUTF8.toList.drop 3).head? with
    | some 115 => return (access, true)
    | some 112 => return (access, false)
    | _ => throw "invalid sharing flag"

def region (line : List Char) : Except String Region := do
  let f ← fields line
  let (start, stop) ← range f.range
  let (access, shared) ← permissions f.permissions
  let offset ← word "invalid offset" f.offset
  let path := match Text.trimStart f.rest with
    | [] => none
    | path => some (String.ofList path)
  return ⟨start, stop, access, shared, offset, path⟩

/-- The region that a line describes; the line is counted by its number. -/
def regionOfLine (line : List Char) (number : Nat) : Except SourceFault Region :=
  match region line with
  | .ok r => .ok r
  | .error reason => .error (.malformedMaps number reason)

/-- The regions of lines from a number on; blank ones are passed over. -/
def regionsFrom : (number : Nat) → List (List Char) → Except SourceFault (List Region)
  | _, [] => .ok []
  | number, line :: rest =>
    if (Text.trim line).isEmpty then regionsFrom (number + 1) rest
    else do
      let r ← regionOfLine line number
      return r :: (← regionsFrom (number + 1) rest)

def regions (s : String) : Except SourceFault (List Region) :=
  regionsFrom 1 (Text.lines s.toList)

end Maps

end Grapnel
