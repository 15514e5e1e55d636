import Grapnel.Patch.CodeSpace

namespace Grapnel

structure Trampoline where
  number : Nat
deriving DecidableEq, Inhabited

structure Hook where
  target : Address
  detour : Address
  displaced : List UInt8
  trampoline : Trampoline
  /-- The access of the pages under the jump. -/
  pages : List (Address × Access)
deriving DecidableEq, Inhabited

/-- Hooks are jumps written over the start of functions. The bytes that a jump displaces are kept in a
trampoline, from which the function can still be called, and are put back when the hook goes. The page of
a trampoline is known by the number of the trampoline alone: it has no address in the code, so that no
hook can be put on it and no code can be read from it, and it is never unmapped. -/
structure Interceptor where
  arch : Architecture
  /-- At most one for each target, in the order of their installation. -/
  hooks : List Hook
  /-- The pages of the trampolines in use. -/
  trampolines : List (Trampoline × List UInt8)
  nextTrampoline : Nat
deriving Inhabited

namespace Interceptor

def create (arch : Architecture) : Interceptor := ⟨arch, [], [], 0⟩

def hook? (i : Interceptor) (target : Address) : Option Hook :=
  i.hooks.find? (·.target == target)

def isHooked (i : Interceptor) (target : Address) : Bool := (i.hook? target).isSome

/-- The trampoline of the hook at a target. -/
def trampoline? (i : Interceptor) (target : Address) : Option Trampoline :=
  (i.hook? target).map (·.trampoline)

def entry? (i : Interceptor) (t : Trampoline) : Option (List UInt8) :=
  (i.trampolines.find? (·.1 == t)).map (·.2)

def pageOf (code : List UInt8) : List UInt8 :=
  code ++ List.replicate (Page.size - code.length) 0

def record (i : Interceptor) (target detour : Address) (displaced page : List UInt8)
    (pages : List (Address × Access)) : Trampoline × Interceptor :=
  let t : Trampoline := ⟨i.nextTrampoline⟩
  (t, { i with
    hooks := i.hooks ++ [⟨target, detour, displaced, t, pages⟩]
    trampolines := i.trampolines ++ [(t, page)]
    nextTrampoline := i.nextTrampoline + 1 })

def forget (i : Interceptor) (h : Hook) : Interceptor :=
  { i with
    hooks := i.hooks.filter (·.target != h.target)
    trampolines := i.trampolines.filter (·.1 != h.trampoline) }

variable {W : Type} (space : CodeSpace W)

def install (i : Interceptor) (target detour : Address) (w : W) :
    Except HookFault Trampoline × Interceptor × W :=
  if i.isHooked target then (.error (.alreadyHooked target), i, w)
  else
    let displaced := space.read target i.arch.jumpSize w
    match space.allocate w with
    | (.error fault, w) => (.error (.allocation fault), i, w)
    | (.ok _, w) =>
      let jump := i.arch.jump detour
      match target.add i.arch.jumpSize, space.protections target jump.length w with
      | .error trap, _ => (.error (.trapped trap), i, w)
      | .ok _, .error trap => (.error (.trapped trap), i, w)
      | .ok resume, .ok pages =>
        match space.patch target jump pages w with
        | (.error fault, w) => (.error fault, i, w)
        | (.ok _, w) =>
          let page := pageOf (displaced ++ i.arch.jump resume)
          let (t, i) := i.record target detour displaced page pages
          (.ok t, i, w)

/-- Puts back what the hook at a target displaced; answers whether there was one. -/
def remove (i : Interceptor) (target : Address) (w : W) :
    Except HookFault Bool × Interceptor × W :=
  match i.hook? target with
  | none => (.ok false, i, w)
  | some h =>
    match space.patch target h.displaced h.pages w with
    | (.error fault, w) => (.error fault, i, w)
    | (.ok _, w) => (.ok true, i.forget h, w)

/-- Removes the hooks at some targets, one after the other, up to the first that cannot be removed. -/
def removeEach : List Address → Interceptor → W → Except HookFault Unit × Interceptor × W
  | [], i, w => (.ok (), i, w)
  | target :: targets, i, w =>
    match i.remove space target w with
    | (.error fault, i, w) => (.error fault, i, w)
    | (.ok _, i, w) => removeEach targets i w

def removeAll (i : Interceptor) (w : W) : Except HookFault Unit × Interceptor × W :=
  removeEach space (i.hooks.map (·.target)) i w

end Interceptor

end Grapnel
