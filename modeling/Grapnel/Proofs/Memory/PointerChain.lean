import Grapnel.Proofs.Memory.Batch

namespace Grapnel

theorem Address.toNat_displace (a : Address) (offset : Int64) :
    ((a.displace offset).toNat : Int) = (a.toNat + offset.toInt) % wordLimit := by
  have hoffset : (offset.toUInt64.toNat : Int) ≡ offset.toInt [ZMOD wordLimit] := by
    rw [Int64.toInt, BitVec.toInt_eq_toNat_bmod]
    exact Int.bmod_emod.symm
  have hsum : (a.displace offset).toNat = (a.toNat + offset.toUInt64.toNat) % wordLimit :=
    UInt64.toNat_add _ _
  rw [hsum, Int.natCast_emod, Nat.cast_add]
  exact hoffset.add_left _

/-- A null dereference counted from some steps earlier on. -/
def Stop.later (steps : Nat) : Stop → Stop
  | .refused (.nullDereference slot index) => .refused (.nullDereference slot (index + steps))
  | stop => stop

namespace MemoryWork

variable {D W : Type}

/-- The pointer in a slot, which has to be readable and must not be null. -/
def pointerAt (drv : MemoryDriver D W) (slot : Address) (index : Nat) : MemoryWork D W Address := do
  let next ← tryCatch (readAddress drv slot) fun _ => refuse (.nullDereference slot index)
  if next.isNull then refuse (.nullDereference slot index) else return next

/-- The pointer that a read of a slot finds, if it is granted and finds no null. -/
def pointer? (drv : MemoryDriver D W) (d : D) (slot : Address) (w : W) : Option Address :=
  match (drv.read d slot 8 w).1 with
  | .ok bytes =>
    let next := .ofNat (LittleEndian.ofBytes bytes)
    if next.isNull then none else some next
  | .error _ => none

/-- The world after a slot was read. -/
def afterRead (drv : MemoryDriver D W) (d : D) (slot : Address) (w : W) : W :=
  (drv.read d slot 8 w).2

/-- Hops from slot to slot, each slot at an offset from the last pointer. -/
inductive Hops (drv : MemoryDriver D W) (d : D) : Address → List Int64 → W → Address → W → Prop
  | nil : Hops drv d a [] w a w
  | cons : pointer? drv d (a.displace offset) w = some next →
      Hops drv d next offsets (afterRead drv d (a.displace offset) w) b w' →
      Hops drv d a (offset :: offsets) w b w'

/-- Hops over all offsets of a chain but the last, which leads to its end. -/
def EndsAt (drv : MemoryDriver D W) (d : D) (base : Address) (offsets : List Int64) (w : W)
    (b : Address) (w' : W) : Prop :=
  ∃ before last a, offsets = before ++ [last] ∧ Hops drv d base before w a w' ∧ b = a.displace last

/-- The first slot of a chain without a pointer. -/
def BreaksAt (drv : MemoryDriver D W) (d : D) (base : Address) (offsets : List Int64) (w : W)
    (index : Nat) (slot : Address) (w' : W) : Prop :=
  ∃ before offset rest a w₁, offsets = before ++ offset :: rest ∧ rest ≠ [] ∧ index = before.length ∧
    Hops drv d base before w a w₁ ∧ slot = a.displace offset ∧ pointer? drv d slot w₁ = none ∧
    w' = afterRead drv d slot w₁

variable {drv : MemoryDriver D W} {m : Memory D W} {d : D} {a b base slot next : Address}
  {offset : Int64} {offsets before rest xs ys : List Int64} {index : Nat} {w w' : W}

theorem outcome_readAddress (hd : m.handle = some d) (slot : Address) :
    outcome (readAddress drv slot) m =
      (((drv.read d slot 8 m.world).1.map fun bytes => .ofNat (LittleEndian.ofBytes bytes)).mapError
        .refused, { m with world := afterRead drv d slot m.world }) := by
  rw [readAddress, outcome_bind, readNumber, outcome_bind, outcome_read hd, afterRead]
  cases (drv.read d slot 8 m.world).1 <;> rfl

theorem outcome_pointerAt (hd : m.handle = some d) (slot : Address) (index : Nat) :
    outcome (pointerAt drv slot index) m =
      ((pointer? drv d slot m.world).elim (.error (.refused (.nullDereference slot index))) .ok,
        { m with world := afterRead drv d slot m.world }) := by
  rw [pointerAt, outcome_bind, outcome_tryCatch, outcome_readAddress hd, pointer?]
  cases (drv.read d slot 8 m.world).1 with
  | error fault => rfl
  | ok bytes =>
    dsimp only [Except.map, Except.mapError]
    split <;> rfl

theorem outcome_followFrom_cons (hd : m.handle = some d) (hrest : rest ≠ []) :
    outcome (followFrom drv index a (offset :: rest)) m =
      outcome (do
        let next ← pointerAt drv (a.displace offset) index
        followFrom drv (index + 1) next rest) m := by
  rw [followFrom]
  · rw [outcome_bind, outcome_tryCatch, outcome_map, outcome_readAddress hd, outcome_bind,
      outcome_pointerAt hd, pointer?]
    cases (drv.read d (a.displace offset) 8 m.world).1 with
    | error fault => rfl
    | ok bytes =>
      dsimp only [Except.map, Except.mapError]
      split <;> rfl
  · exact hrest

/-- Hops over the first offsets of a chain come before the rest of it is followed. -/
theorem Hops.follow (h : Hops drv d a before w b w') (hrest : rest ≠ []) :
    ∀ m index, m.handle = some d → m.world = w →
      outcome (followFrom drv index a (before ++ rest)) m =
        outcome (followFrom drv (index + before.length) b rest) { m with world := w' } := by
  induction h with
  | nil =>
    rintro m index hd rfl
    rfl
  | cons hp hops ih =>
    rintro m index hd rfl
    rw [List.cons_append, outcome_followFrom_cons hd (by simp [hrest]), outcome_bind,
      outcome_pointerAt hd, hp]
    dsimp only [Option.elim]
    rw [ih { m with world := afterRead drv d _ m.world } (index + 1) hd rfl, List.length_cons,
      Nat.add_assoc, Nat.add_comm 1]

/-- A chain either hops to its end or breaks off. -/
theorem ends_or_breaks (drv : MemoryDriver D W) (d : D) (base : Address) (w : W) (hne : offsets ≠ []) :
    (∃ b w', EndsAt drv d base offsets w b w') ∨
      ∃ index slot w', BreaksAt drv d base offsets w index slot w' := by
  induction offsets generalizing base w with
  | nil => contradiction
  | cons offset rest ih =>
    cases rest with
    | nil => exact .inl ⟨_, _, [], offset, base, rfl, .nil, rfl⟩
    | cons offset' rest =>
      cases hp : pointer? drv d (base.displace offset) w with
      | none =>
        exact .inr ⟨_, _, _, [], offset, _, base, w, rfl, List.cons_ne_nil _ _, rfl, .nil, rfl, hp, rfl⟩
      | some next =>
        rcases ih next (afterRead drv d (base.displace offset) w) (List.cons_ne_nil _ _) with
          ⟨b, w', before, last, a, hsplit, hops, hb⟩ |
          ⟨index, slot, w', before, last, tail, a, w₁, hsplit, htail, hi, hops, hslot, hnone, hw⟩
        · exact .inl ⟨b, w', offset :: before, last, a, congrArg _ hsplit, .cons hp hops, hb⟩
        · exact .inr ⟨index + 1, slot, w', offset :: before, last, tail, a, w₁, congrArg _ hsplit, htail,
            congrArg _ hi, .cons hp hops, hslot, hnone, hw⟩

theorem EndsAt.follow (h : EndsAt drv d base offsets m.world b w') (hd : m.handle = some d)
    (index : Nat) :
    outcome (followFrom drv index base offsets) m = (.ok b, { m with world := w' }) := by
  obtain ⟨before, last, a, rfl, hops, rfl⟩ := h
  rw [hops.follow (List.cons_ne_nil _ _) m index hd rfl]
  rfl

theorem BreaksAt.follow (h : BreaksAt drv d base offsets m.world index slot w')
    (hd : m.handle = some d) (first : Nat) :
    outcome (followFrom drv first base offsets) m =
      (.error (.refused (.nullDereference slot (first + index))), { m with world := w' }) := by
  obtain ⟨before, offset, rest, a, w₁, rfl, hrest, rfl, hops, rfl, hnone, rfl⟩ := h
  have hd' : ({ m with world := w₁ } : Memory D W).handle = some d := hd
  rw [hops.follow (List.cons_ne_nil _ _) m first hd rfl, outcome_followFrom_cons hd' hrest,
    outcome_bind, outcome_pointerAt hd', hnone]
  rfl

theorem BreaksAt.append (h : BreaksAt drv d base xs w index slot w') (ys : List Int64) :
    BreaksAt drv d base (xs ++ ys) w index slot w' := by
  obtain ⟨before, offset, rest, a, w₁, rfl, hrest, hi, hops, hslot, hnone, hw⟩ := h
  exact ⟨before, offset, rest ++ ys, a, w₁, by simp, by simp [hrest], hi, hops, hslot, hnone, hw⟩

theorem outcome_resolveChain (hd : m.handle = some d) (base : Address) (offsets : List Int64) :
    outcome (resolveChain drv base offsets) m = outcome (followFrom drv 0 base offsets) m := by
  rw [resolveChain, outcome_bind, outcome_discard, outcome_handle hd]
  rfl

theorem followFrom_later (hd : m.handle = some d) (base : Address) (hne : offsets ≠ []) (steps : Nat) :
    outcome (followFrom drv steps base offsets) m =
      outcome (ExceptT.adapt (Stop.later steps) (resolveChain drv base offsets)) m := by
  rw [outcome_adapt, outcome_resolveChain hd]
  rcases ends_or_breaks drv d base m.world hne with ⟨b, w', h⟩ | ⟨index, slot, w', h⟩
  · rw [h.follow hd, h.follow hd]
    rfl
  · rw [h.follow hd, h.follow hd, Nat.zero_add, Nat.add_comm]
    rfl

theorem resolveChain_ok_iff (hd : m.handle = some d) (base : Address) (hne : offsets ≠ []) :
    (outcome (resolveChain drv base offsets) m).1 = .ok b ↔
      ∃ w', EndsAt drv d base offsets m.world b w' := by
  rw [outcome_resolveChain hd]
  constructor
  · intro hb
    rcases ends_or_breaks drv d base m.world hne with ⟨b', w', h⟩ | ⟨index, slot, w', h⟩
    · rw [h.follow hd] at hb
      cases hb
      exact ⟨w', h⟩
    · rw [h.follow hd] at hb
      cases hb
  · rintro ⟨w', h⟩
    rw [h.follow hd]

theorem resolveChain_error_iff (hd : m.handle = some d) (base : Address) (hne : offsets ≠ []) :
    (outcome (resolveChain drv base offsets) m).1 = .error stop ↔
      ∃ index slot w', BreaksAt drv d base offsets m.world index slot w' ∧
        stop = .refused (.nullDereference slot index) := by
  rw [outcome_resolveChain hd]
  constructor
  · intro hstop
    rcases ends_or_breaks drv d base m.world hne with ⟨b, w', h⟩ | ⟨index, slot, w', h⟩
    · rw [h.follow hd] at hstop
      cases hstop
    · rw [h.follow hd, Nat.zero_add] at hstop
      cases hstop
      exact ⟨index, slot, w', h, rfl⟩
  · rintro ⟨index, slot, w', h, rfl⟩
    rw [h.follow hd, Nat.zero_add]

theorem resolveChain_in_parts (hd : m.handle = some d) (base : Address) (hx : xs ≠ [])
    (hy : ys ≠ []) :
    outcome (resolveChain drv base (xs ++ ys)) m =
      outcome (do
        let slot ← resolveChain drv base xs
        let next ← pointerAt drv slot (xs.length - 1)
        ExceptT.adapt (Stop.later xs.length) (resolveChain drv next ys)) m := by
  rw [outcome_bind, outcome_resolveChain hd, outcome_resolveChain hd]
  rcases ends_or_breaks drv d base m.world hx with ⟨slot, w', h⟩ | ⟨index, slot, w', h⟩
  · rw [h.follow hd]
    obtain ⟨before, last, a, rfl, hops, rfl⟩ := h
    have hd' : ({ m with world := w' } : Memory D W).handle = some d := hd
    have hsplit : before ++ [last] ++ ys = before ++ last :: ys := List.append_assoc ..
    rw [hsplit, hops.follow (List.cons_ne_nil _ _) m 0 hd rfl, outcome_followFrom_cons hd' hy,
      Nat.zero_add, List.length_append, List.length_singleton, Nat.add_sub_cancel]
    dsimp only
    rw [outcome_bind, outcome_bind, outcome_pointerAt hd']
    cases pointer? drv d (a.displace last) w' with
    | none => rfl
    | some next =>
      dsimp only [Option.elim]
      apply followFrom_later _ next hy
      · exact d
      · exact hd
  · rw [h.follow hd, (h.append ys).follow hd]

/-- Following a chain to the end of its first part, reading the pointer there, and following its second
part from that pointer is following it as a whole, with the steps of the second part counted from the
first one's end. The whole chain fails just where its first slot without a pointer is. -/
theorem resolveChain_append (hd : m.handle = some d) (base : Address) (hx : xs ≠ []) (hy : ys ≠ []) :
    outcome (resolveChain drv base (xs ++ ys)) m =
      outcome (do
        let slot ← resolveChain drv base xs
        let next ← pointerAt drv slot (xs.length - 1)
        ExceptT.adapt (Stop.later xs.length) (resolveChain drv next ys)) m ∧
    (∀ b, (outcome (resolveChain drv base (xs ++ ys)) m).1 = .ok b ↔
      ∃ w', EndsAt drv d base (xs ++ ys) m.world b w') ∧
    (∀ stop, (outcome (resolveChain drv base (xs ++ ys)) m).1 = .error stop ↔
      ∃ index slot w', BreaksAt drv d base (xs ++ ys) m.world index slot w' ∧
        stop = .refused (.nullDereference slot index)) ∧
    ∀ (a : Address) (offset : Int64),
      ((a.displace offset).toNat : Int) = (a.toNat + offset.toInt) % 2 ^ 64 := by
  have hne : xs ++ ys ≠ [] := List.append_ne_nil_of_left_ne_nil hx ys
  refine ⟨resolveChain_in_parts hd base hx hy, ?_, ?_, Address.toNat_displace⟩
  · intro b
    exact resolveChain_ok_iff hd base hne
  · intro stop
    exact resolveChain_error_iff hd base hne

/-- Two pieces of memory; the first one points to the second, which points to no readable place. -/
def twoHops : Segments where
  segments := [
    ⟨⟨.ofNat 0x1000, .ofNat 0x1010, .readExecute, false, 0, none⟩,
      [0, 0, 0, 0, 0, 0, 0, 0, 0, 0x20, 0, 0, 0, 0, 0, 0], false⟩,
    ⟨⟨.ofNat 0x2000, .ofNat 0x2008, .readExecute, false, 0, none⟩,
      [0, 0x30, 0, 0, 0, 0, 0, 0], false⟩]
  maxRead := none
  writable := false
  vectored := .each
  regionsFail := false
  calls := []

theorem resolveChain_append_twoHops :
    (outcome (resolveChain Segments.driver (.ofNat 0x1000) ([8, 0] ++ [-1, 4]))
      ((Memory.open? none none twoHops).attach 7)).1 =
      .error (.refused (.nullDereference (.ofNat 0x2FFF) 2)) := by
  have hfirst : pointer? Segments.driver 7 (.ofNat 0x1008) twoHops = some (.ofNat 0x2000) := by decide
  have hsecond : pointer? Segments.driver 7 (.ofNat 0x2000)
      (afterRead Segments.driver 7 (.ofNat 0x1008) twoHops) = some (.ofNat 0x3000) := by decide
  have hthird : pointer? Segments.driver 7 (.ofNat 0x2FFF)
      (afterRead Segments.driver 7 (.ofNat 0x2000)
        (afterRead Segments.driver 7 (.ofNat 0x1008) twoHops)) = none := by decide
  have hbreaks : ∃ w', BreaksAt Segments.driver 7 (.ofNat 0x1000) ([8, 0] ++ [-1, 4]) twoHops 2
      (.ofNat 0x2FFF) w' :=
    ⟨_, [8, 0], -1, [4], .ofNat 0x3000, _, rfl, List.cons_ne_nil _ _, rfl,
      .cons hfirst (.cons hsecond .nil), rfl, hthird, rfl⟩
  obtain ⟨w', hbreaks⟩ := hbreaks
  apply ((resolveChain_append rfl (.ofNat 0x1000) ?_ ?_).2.2.1 _).2 ⟨2, _, w', hbreaks, rfl⟩
  · exact List.cons_ne_nil _ _
  · exact List.cons_ne_nil _ _

end MemoryWork

end Grapnel
