import Grapnel.FileTree.Fault
import Grapnel.Memory.Region
import Grapnel.Patch.Architecture

namespace Grapnel

/-- What patching code needs of an address space that is a world `W`. -/
structure CodeSpace (W : Type) where
  read : Address → Nat → W → List UInt8
  write : Address → List UInt8 → W → W
  /-- The mapped regions; none where they cannot be told. -/
  regions : W → List Region
  /-- Changes the access of all pages from a start up to an end. -/
  protect : Address → Address → Access → W → Except IoFault Unit × W
  /-- Maps an executable page outside the code. -/
  allocate : W → Except IoFault Unit × W

inductive HookFault where
  | alreadyHooked (target : Address)
  | allocation (fault : IoFault)
  | protection (a : Address) (fault : IoFault)
  | trapped (trap : Trap)
deriving DecidableEq, Inhabited

namespace HookFault

def message : HookFault → String
  | .alreadyHooked target => "Address " ++ target.text ++ " is already hooked"
  | .allocation fault => "Cannot allocate trampoline: " ++ fault.message
  | .protection a fault => "Cannot change protection at " ++ a.text ++ ": " ++ fault.message
  | .trapped trap => trap.message

end HookFault

/-- The access of a page, that of the first region with it; unmapped pages count as code. -/
def accessOfPage (regions : List Region) (page : Address) : Access :=
  match regions.find? (·.contains page) with
  | some r => r.access
  | none => .readExecute

/-- The access of every page from one address up to another, in ascending order. -/
def accessOfPages (regions : List Region) (page stop : Address) :
    Except Trap (List (Address × Access)) :=
  if page < stop then
    if page.toNat + Page.size < wordLimit then
      (accessOfPages regions (.ofNat (page.toNat + Page.size)) stop).map
        ((page, accessOfPage regions page) :: ·)
    else .error .addOverflow
  else .ok []
termination_by wordLimit - page.toNat
decreasing_by
  have h : page.toNat + Page.size < wordLimit := by assumption
  have : (Address.ofNat (page.toNat + Page.size)).toNat = page.toNat + Page.size := by
    simp only [Address.toNat, Address.ofNat, UInt64.toNat_ofNat']
    exact Nat.mod_eq_of_lt h
  rw [this]
  simp only [Page.size, Page.shift] at h ⊢
  omega

namespace CodeSpace

variable {W : Type} (space : CodeSpace W)

/-- The access of every page that a range of bytes touches. -/
def protections (a : Address) (length : Nat) (w : W) : Except Trap (List (Address × Access)) := do
  let (start, stop) ← Page.span a length
  accessOfPages (space.regions w) start stop

/-- Gives pages their access back; a page that refuses is passed over. -/
def restore : List (Address × Access) → W → W
  | [], w => w
  | (page, access) :: pages, w =>
    restore pages (space.protect page (.ofNat (page.toNat + Page.size)) access w).2

/-- Stores bytes over code, then gives the pages their access back. -/
def patch (target : Address) (content : List UInt8) (pages : List (Address × Access)) (w : W) :
    Except HookFault Unit × W :=
  match Page.span target content.length with
  | .error trap => (.error (.trapped trap), w)
  | .ok (start, stop) =>
    match space.protect start stop .all w with
    | (.error fault, w) => (.error (.protection start fault), w)
    | (.ok _, w) => (.ok (), space.restore pages (space.write target content w))

end CodeSpace

end Grapnel
