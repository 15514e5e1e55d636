import Grapnel.Proofs.Memory.PatternSearch

namespace Grapnel

variable {f g : Nat → UInt8} {a n place : Nat} {bytes : List UInt8}

/-- A memory with bytes written over it. -/
def overlay (f : Nat → UInt8) (a : Nat) (bytes : List UInt8) (place : Nat) : UInt8 :=
  if a ≤ place then (bytes[place - a]?).getD (f place) else f place

theorem overlay_of_outside (h : ¬ (a ≤ place ∧ place < a + bytes.length)) :
    overlay f a bytes place = f place := by
  rw [overlay]
  split
  · rw [List.getElem?_eq_none (by omega)]
    rfl
  · rfl

theorem overlay_of_inside {b : UInt8} (ha : a ≤ place) (hb : bytes[place - a]? = some b) :
    overlay f a bytes place = b := by
  rw [overlay, if_pos ha, hb]
  rfl

theorem getElem?_overlay (ha : a ≤ place) (hb : place < a + bytes.length) :
    bytes[place - a]? = some (overlay f a bytes place) := by
  have hlt : place - a < bytes.length := by omega
  rw [overlay_of_inside ha (List.getElem?_eq_getElem hlt), List.getElem?_eq_getElem hlt]

theorem getElem?_bytesFrom_sub (ha : a ≤ place) (hn : place < a + n) :
    (bytesFrom f a n)[place - a]? = some (f place) := by
  rw [← List.getElem?_toArray, getElem?_bytesFrom, if_pos (by omega), Nat.add_sub_cancel' ha]

theorem bytesFrom_congr (h : ∀ place, a ≤ place → place < a + n → f place = g place) :
    bytesFrom f a n = bytesFrom g a n := by
  apply List.map_congr_left
  intro k hk
  rw [List.mem_range] at hk
  exact h (a + k) (Nat.le_add_right _ _) (Nat.add_lt_add_left hk _)

theorem bytesFrom_overlay : bytesFrom (overlay f a bytes) a bytes.length = bytes := by
  apply List.ext_getElem?
  intro k
  rw [← List.getElem?_toArray, getElem?_bytesFrom]
  split
  · next hk =>
    rw [overlay, if_pos (Nat.le_add_right _ _), Nat.add_sub_cancel_left, List.getElem?_eq_getElem hk]
    rfl
  · next hk => rw [List.getElem?_eq_none (Nat.le_of_not_lt hk)]

theorem getElem?_splice {content bytes : List UInt8} {j o : Nat}
    (hfit : j + bytes.length ≤ content.length) :
    (content.take j ++ bytes ++ content.drop (j + bytes.length))[o]? =
      if j ≤ o ∧ o < j + bytes.length then bytes[o - j]? else content[o]? := by
  have hlength : (content.take j).length = j := by
    rw [List.length_take]
    omega
  rw [List.append_assoc]
  by_cases hlow : o < j
  · rw [List.getElem?_append_left (by omega), List.getElem?_take_of_lt hlow, if_neg (by omega)]
  · rw [List.getElem?_append_right (by omega), hlength]
    by_cases hhigh : o < j + bytes.length
    · rw [List.getElem?_append_left (by omega), if_pos (by omega)]
    · rw [List.getElem?_append_right (by omega), List.getElem?_drop, if_neg (by omega)]
      congr 1
      omega

section Writes

variable {f : Nat → UInt8} {place : Nat} {writes before after : List (Nat × List UInt8)}

/-- A memory with several writes made one after the other. -/
def overlays (f : Nat → UInt8) (writes : List (Nat × List UInt8)) : Nat → UInt8 :=
  writes.foldl (fun f write => overlay f write.1 write.2) f

/-- The byte that a write has for a place. -/
def byteOver? (write : Nat × List UInt8) (place : Nat) : Option UInt8 :=
  if write.1 ≤ place then write.2[place - write.1]? else none

/-- The byte of the last write over a place. -/
def lastByte? : List (Nat × List UInt8) → Nat → Option UInt8
  | [], _ => none
  | write :: writes, place => (lastByte? writes place).or (byteOver? write place)

theorem overlay_eq (write : Nat × List UInt8) :
    overlay f write.1 write.2 place = (byteOver? write place).getD (f place) := by
  rw [overlay, byteOver?]
  split <;> rfl

theorem overlays_eq : overlays f writes place = (lastByte? writes place).getD (f place) := by
  induction writes generalizing f with
  | nil => rfl
  | cons write writes ih =>
    change overlays (overlay f write.1 write.2) writes place = _
    rw [ih, overlay_eq, lastByte?]
    cases lastByte? writes place <;> rfl

theorem lastByte?_append :
    lastByte? (before ++ after) place = (lastByte? after place).or (lastByte? before place) := by
  induction before with
  | nil => exact (Option.or_none).symm
  | cons write before ih => rw [List.cons_append, lastByte?, ih, lastByte?, Option.or_assoc]

/-- Writes that were made before leave no trace once they are made again with all that follow. -/
theorem overlays_again : overlays (overlays f before) (before ++ after) = overlays f (before ++ after) := by
  funext place
  rw [overlays_eq, overlays_eq, overlays_eq, lastByte?_append]
  cases lastByte? after place <;> cases lastByte? before place <;> rfl

theorem overlays_append : overlays f (before ++ after) = overlays (overlays f before) after :=
  List.foldl_append

theorem overlays_nothing (h : ∀ write ∈ writes, write.2 = []) : overlays f writes = f := by
  induction writes with
  | nil => rfl
  | cons write writes ih =>
    obtain ⟨hfirst, hrest⟩ := List.forall_mem_cons.1 h
    have hnothing : overlay f write.1 write.2 = f := by
      funext place
      rw [hfirst]
      exact overlay_of_outside (by simp only [List.length_nil]; omega)
    change overlays (overlay f write.1 write.2) writes = f
    rw [hnothing, ih hrest]

end Writes

end Grapnel
