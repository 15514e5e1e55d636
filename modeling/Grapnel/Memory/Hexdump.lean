import Grapnel.Memory.Basic

namespace Grapnel

inductive CellSize where
  | one
  | four
  | eight
deriving DecidableEq, Inhabited

namespace CellSize

def bytes : CellSize → Nat
  | .one => 1
  | .four => 4
  | .eight => 8

end CellSize

namespace Hexdump

def lineBytes : Nat := 16

/-- Cuts a list into pieces of a size; the last one may be shorter. -/
def pieces (size : Nat) (xs : List UInt8) : List (List UInt8) :=
  if _h : size = 0 ∨ xs = [] then []
  else xs.take size :: pieces size (xs.drop size)
termination_by xs.length
decreasing_by
  have : 0 < xs.length := List.length_pos_iff.mpr fun e => _h (.inr e)
  simp only [List.length_drop]; omega

def cell (size : CellSize) (bytes : List UInt8) : List Char :=
  Hexadecimal.upper (Hexadecimal.padded (2 * size.bytes) (LittleEndian.ofBytes bytes))

/-- A byte as a character, if it is a visible one. -/
def visible (b : UInt8) : Char := if 33 ≤ b && b ≤ 126 then Char.ofNat b.toNat else '.'

/-- One line; blanks stand for the cells that are missing. -/
def line (size : CellSize) (a : Address) (bytes : List UInt8) : List Char :=
  let cells := (pieces size.bytes bytes).flatMap fun bs => ' ' :: cell size bs
  let missing := (lineBytes - bytes.length + size.bytes - 1) / size.bytes
  "0x".toList ++ Hexadecimal.upper (Hexadecimal.padded 16 a.toNat) ++ " |".toList ++ cells
    ++ List.replicate (missing * (2 * size.bytes + 1)) ' ' ++ " | ".toList ++ bytes.map visible

/-- The lines of a content that starts at an address. -/
def linesFrom (size : CellSize) (a : Address) :
    (index : Nat) → List (List UInt8) → Except Trap (List (List Char))
  | _, [] => .ok []
  | index, bytes :: rest => do
    let here ← a.add (index * lineBytes)
    return line size here bytes :: (← linesFrom size a (index + 1) rest)

def text (size : CellSize) (a : Address) (content : List UInt8) : Except Trap String := do
  let lines ← linesFrom size a 0 (pieces lineBytes content)
  return String.ofList (lines.flatMap fun l => l ++ ['\n'])

end Hexdump

namespace MemoryWork

def hexdump {D W : Type} (drv : MemoryDriver D W) (size : CellSize) (a : Address) (count : Nat) :
    MemoryWork D W String := do
  checked (Hexdump.text size a (← readBytes drv a count))

end MemoryWork

end Grapnel
