namespace Grapnel

/-- A set of rights; bits without a meaning are kept. -/
structure Access where
  bits : UInt8
deriving DecidableEq, Inhabited

namespace Access

def none : Access := ⟨0⟩

def read : Access := ⟨1⟩

def write : Access := ⟨2⟩

def execute : Access := ⟨4⟩

def union (a b : Access) : Access := ⟨a.bits ||| b.bits⟩

def readExecute : Access := read.union execute

def readWrite : Access := read.union write

def all : Access := readWrite.union execute

def contains (a b : Access) : Bool := a.bits &&& b.bits == b.bits

/-- The right at a place of a permission text; a dash grants none. -/
def ofPlace? (letter : UInt8) (right : Access) (b : UInt8) : Option Access :=
  if b == 45 then some none else if b == letter then some right else Option.none

/-- Rights from a text that starts with three places, for `r`, `w` and `x`. -/
def ofText? (s : String) : Option Access :=
  match s.toUTF8.toList with
  | r :: w :: x :: _ => do
    let r ← ofPlace? 114 read r
    let w ← ofPlace? 119 write w
    let x ← ofPlace? 120 execute x
    return (r.union w).union x
  | _ => Option.none

def text (a : Access) : String :=
  String.ofList [if a.contains read then 'r' else '-', if a.contains write then 'w' else '-',
    if a.contains execute then 'x' else '-']

end Access

end Grapnel
