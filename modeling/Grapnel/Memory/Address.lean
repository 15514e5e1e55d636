import Grapnel.Number.Hexadecimal

namespace Grapnel

/-- Why checked arithmetic stops. -/
inductive Trap where
  | addOverflow
  | subtractOverflow
  /-- An alignment that is not a power of two. -/
  | badAlignment
  /-- A buffer that is too long for any address space. -/
  | capacityOverflow
deriving DecidableEq, Inhabited

namespace Trap

def message : Trap → String
  | .addOverflow => "attempt to add with overflow"
  | .subtractOverflow => "attempt to subtract with overflow"
  | .badAlignment => "assertion failed: alignment.is_power_of_two()"
  | .capacityOverflow => "capacity overflow"

end Trap

/-- Numbers below this fit into a word. -/
def wordLimit : Nat := 2 ^ 64

def addChecked (a b : Nat) : Except Trap Nat :=
  if a + b < wordLimit then .ok (a + b) else .error .addOverflow

/-- Buffers are shorter than this. -/
def bufferLimit : Nat := 2 ^ 63

/-- Makes room for a buffer. Memory that runs out is not modelled: what can be addressed is there. -/
def allocate (size : Nat) : Except Trap Unit :=
  if size < bufferLimit then .ok () else .error .capacityOverflow

structure Address where
  word : UInt64
deriving DecidableEq, Inhabited

namespace Address

def ofNat (n : Nat) : Address := ⟨UInt64.ofNat n⟩

def toNat (a : Address) : Nat := a.word.toNat

def null : Address := ⟨0⟩

def text (a : Address) : String := "0x" ++ String.ofList (Hexadecimal.padded 16 a.toNat)

def isNull (a : Address) : Bool := a.word == 0

instance : LE Address := ⟨fun a b => a.word ≤ b.word⟩

instance : LT Address := ⟨fun a b => a.word < b.word⟩

instance (a b : Address) : Decidable (a ≤ b) := inferInstanceAs (Decidable (a.word ≤ b.word))

instance (a b : Address) : Decidable (a < b) := inferInstanceAs (Decidable (a.word < b.word))

def add (a : Address) (n : Nat) : Except Trap Address :=
  if a.toNat + n < wordLimit then .ok (ofNat (a.toNat + n)) else .error .addOverflow

def sub (a : Address) (n : Nat) : Except Trap Address :=
  if n ≤ a.toNat then .ok (ofNat (a.toNat - n)) else .error .subtractOverflow

/-- How far an address lies above another one. -/
def distance (a b : Address) : Except Trap Nat :=
  if b ≤ a then .ok (a.toNat - b.toNat) else .error .subtractOverflow

/-- The address some bytes further, up or down, round the end of the address space. -/
def displace (a : Address) (n : Int64) : Address := ⟨a.word + n.toUInt64⟩

/-- The largest multiple of a power of two that is not above an address. -/
def alignDown (a : Address) (alignment : UInt64) : Except Trap Address :=
  if alignment ≠ 0 ∧ alignment &&& (alignment - 1) = 0 then
    .ok ⟨a.word &&& ~~~(alignment - 1)⟩
  else .error .badAlignment

end Address

end Grapnel
