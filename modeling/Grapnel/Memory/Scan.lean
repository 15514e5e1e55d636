import Grapnel.Memory.Address
import Grapnel.Memory.Pattern

namespace Grapnel

namespace Scan

variable {W : Type}

structure Window where
  step : Nat
  positive : 0 < step
  content : List UInt8

/-- Reads at an address with a step and an overlap, of at most `left` bytes; halves the step while
the read is refused and half of it is longer than the overlap. -/
def readWindow (read : Address → Nat → W → Option (List UInt8) × W) (a : Address)
    (overlap left step : Nat) (positive : 0 < step) (w : W) : Except Trap (Option Window) × W :=
  match addChecked step overlap with
  | .error trap => (.error trap, w)
  | .ok size =>
    match read a (min size left) w with
    | (some content, w) => (.ok (some ⟨step, positive, content⟩), w)
    | (none, w) =>
      if h : step / 2 ≤ overlap then (.ok none, w)
      else readWindow read a overlap left (step / 2) (by omega) w
termination_by step
decreasing_by omega

/-- The addresses of matches in a window, or of the first one alone. -/
def matchesIn (p : BytePattern) (a : Address) (firstOnly : Bool) (content : List UInt8) :
    Except Trap (List Address) :=
  let found := p.findAll content.toArray
  (if firstOnly then found.take 1 else found).mapM a.add

/-- Scans from an offset on, in windows. Each read reaches past its window by one byte less than the
pattern, so that a match which starts in a window is seen whole, and seen in that window only. -/
def scanFrom (read : Address → Nat → W → Option (List UInt8) × W) (p : BytePattern)
    (start : Address) (length chunk : Nat) (firstOnly : Bool) (offset : Nat) (w : W) :
    Except Trap (List Address) × W :=
  have positive := p.length_pos
  if wordLimit ≤ offset + p.length then (.error .addOverflow, w)
  else if _h : length < offset + p.length then (.ok [], w)
  else
    match start.add offset with
    | .error trap => (.error trap, w)
    | .ok a =>
      let window := min (max chunk p.length) (length - offset)
      match readWindow read a (p.length - 1) (length - offset) window (by omega) w with
      | (.error trap, w) => (.error trap, w)
      | (.ok none, w) => scanFrom read p start length chunk firstOnly (offset + window) w
      | (.ok (some ⟨step, _, content⟩), w) =>
        match matchesIn p a firstOnly content with
        | .error trap => (.error trap, w)
        | .ok found =>
          if firstOnly && !found.isEmpty then (.ok found, w)
          else
            let (rest, w) := scanFrom read p start length chunk firstOnly (offset + step) w
            (rest.map (found ++ ·), w)
termination_by length - offset
decreasing_by all_goals omega

end Scan

end Grapnel
