import Grapnel.Memory.Address
import Grapnel.Number.LittleEndian

namespace Grapnel

namespace Page

def shift : Nat := 12

def size : Nat := 2 ^ shift

/-- The bits of an address that tell its page. -/
def mask : UInt64 := 0xFFFFFFFFFFFFF000

def base (a : Address) : Address := ⟨a.word &&& mask⟩

/-- The pages of a range, as their start and their end; a range has at least one byte. -/
def span (a : Address) (length : Nat) : Except Trap (Address × Address) := do
  let last ← a.add (max length 1 - 1)
  return (base a, ← (base last).add size)

end Page

inductive Architecture where
  | amd64
  | aarch64
deriving DecidableEq, Inhabited

namespace Architecture

/-- An indirect jump through the word right behind it. -/
def indirectJump : List UInt8 := [0xFF, 0x25, 0, 0, 0, 0]

/-- Loads the word behind the next instruction into a scratch register. -/
def loadLiteral : Nat := 0x58000051

/-- Jumps to the address in that register. -/
def branchRegister : Nat := 0xD61F0220

/-- What an absolute jump starts with; its target follows. -/
def jumpCode : Architecture → List UInt8
  | .amd64 => indirectJump
  | .aarch64 => LittleEndian.bytes 4 loadLiteral ++ LittleEndian.bytes 4 branchRegister

def jump (arch : Architecture) (target : Address) : List UInt8 :=
  arch.jumpCode ++ LittleEndian.bytes 8 target.toNat

def jumpSize (arch : Architecture) : Nat := arch.jumpCode.length + 8

end Architecture

end Grapnel
