import Grapnel.Proofs.Signal.Change

namespace Grapnel

namespace SignalBus

variable {Callback : Type} {b : SignalBus Callback} {h : ConnectionHandle} {id : SignalId}
  {callback : Callback} {name : String}

/-- The signal that a change is made to; clearing is made to all. -/
def Change.signal? (b : SignalBus Callback) : Change Callback → Option SignalId
  | .create name => some (b.create name).1
  | .connect id _ => some id
  | .disconnect h => some h.signal
  | .destroy id => some id
  | .clear => none

theorem nextId_change (b : SignalBus Callback) (c : Change Callback) :
    b.nextId ≤ (b.change c).nextId := by
  cases c with
  | create => exact Nat.le_succ _
  | connect =>
    simp only [change, connect]
    split <;> exact Nat.le_refl _
  | disconnect =>
    simp only [change, disconnect]
    split <;> exact Nat.le_refl _
  | destroy | clear => exact Nat.le_refl _

theorem nextId_changeAll (b : SignalBus Callback) (cs : List (Change Callback)) :
    b.nextId ≤ (b.changeAll cs).nextId := by
  induction cs generalizing b with
  | nil => exact Nat.le_refl _
  | cons c cs ih => exact (nextId_change b c).trans (ih (b.change c))

theorem get?_create_self (hn : b.Numbered) (name : String) :
    (b.create name).2.get? (b.create name).1 = some ⟨(b.create name).1, name, []⟩ := by
  have hnone : b.get? (b.create name).1 = none := by
    refine List.find?_eq_none.2 fun s hs hid => ?_
    have hlt := hn s hs
    rw [of_decide_eq_true hid] at hlt
    exact Nat.lt_irrefl _ hlt
  rw [get?] at hnone ⊢
  rw [create, List.find?_append]
  rw [create] at hnone
  rw [hnone]
  simp

theorem get?_change_of_ne {c : Change Callback} (hc : c.signal? b = some id) {id' : SignalId}
    (hne : id' ≠ id) : (b.change c).get? id' = b.get? id' := by
  cases c with
  | create name =>
    cases hc
    have hne' : ¬ (⟨b.nextId⟩ : SignalId) = id' := fun hid => hne hid.symm
    simp only [change, get?, create, List.find?_append, List.find?_singleton, hne', decide_false,
      Bool.false_eq_true, if_false, Option.or_none]
  | connect =>
    cases hc
    simp only [change, get?_connect, if_neg hne, Option.map_id']
  | disconnect =>
    cases hc
    simp only [change, get?_disconnect, hne, false_and, if_false, Option.map_id']
  | destroy =>
    cases hc
    rw [change, get?_destroy, if_neg (Ne.symm hne)]
  | clear => cases hc

/-- A signal keeps its name until it is removed, and its connections are never fewer. -/
theorem get?_change (hid : id.number < b.nextId) (c : Change Callback) :
    (c.removes id = true ∧ (b.change c).get? id = none) ∨
    (c.removes id = false ∧ ∃ f : Signal Callback → Signal Callback,
      (b.change c).get? id = (b.get? id).map f ∧
        ∀ s, (f s).name = s.name ∧ s.connections.length ≤ (f s).connections.length) := by
  cases c with
  | create name =>
    refine .inr ⟨rfl, fun s => s, ?_, fun _ => ⟨rfl, Nat.le_refl _⟩⟩
    rw [change, get?_create b name hid, Option.map_id']
  | connect id' callback =>
    refine .inr ⟨rfl, _, get?_connect b id' callback, fun s => ?_⟩
    split
    · exact ⟨rfl, by simp⟩
    · exact ⟨rfl, Nat.le_refl _⟩
  | disconnect h =>
    refine .inr ⟨rfl, _, get?_disconnect b h, fun s => ?_⟩
    split
    · exact ⟨rfl, by simp⟩
    · exact ⟨rfl, Nat.le_refl _⟩
  | destroy id' =>
    rw [change, get?_destroy]
    by_cases hid' : id' = id
    · exact .inl ⟨decide_eq_true hid', if_pos hid'⟩
    · refine .inr ⟨decide_eq_false hid', fun s => s, ?_, fun _ => ⟨rfl, Nat.le_refl _⟩⟩
      rw [if_neg hid', Option.map_id']
  | clear => exact .inl ⟨rfl, rfl⟩

theorem name?_change (hid : id.number < b.nextId) (c : Change Callback) :
    (b.change c).name? id = if c.removes id then none else b.name? id := by
  rcases get?_change hid c with ⟨hr, hg⟩ | ⟨hr, f, hg, hf⟩
  · rw [name?, hg, hr]
    rfl
  · rw [name?, hg, hr, name?]
    cases b.get? id with
    | none => rfl
    | some s => exact congrArg some (hf s).1

theorem name?_changeAll (hid : id.number < b.nextId) (cs : List (Change Callback)) :
    (b.changeAll cs).name? id = if cs.any (Change.removes id) then none else b.name? id := by
  induction cs generalizing b with
  | nil => rfl
  | cons c cs ih =>
    rw [changeAll, ih (Nat.lt_of_lt_of_le hid (nextId_change b c)), name?_change hid, List.any_cons]
    cases c.removes id <;> cases cs.any (Change.removes id) <;> rfl

theorem contains_eq (b : SignalBus Callback) (id : SignalId) :
    b.contains id = (b.name? id).isSome := by
  rw [contains, name?, Option.isSome_map]

theorem contains_changeAll (hid : id.number < b.nextId) (cs : List (Change Callback)) :
    (b.changeAll cs).contains id = (b.contains id && !cs.any (Change.removes id)) := by
  rw [contains_eq, name?_changeAll hid, contains_eq]
  cases cs.any (Change.removes id) with
  | true => rw [if_pos rfl, Bool.not_true, Bool.and_false, Option.isSome_none]
  | false => rw [if_neg Bool.false_ne_true, Bool.not_false, Bool.and_true]

theorem Numbered.old (hn : b.Numbered) (hc : b.contains id = true) : id.number < b.nextId := by
  obtain ⟨s, hs⟩ := Option.isSome_iff_exists.1 hc
  rw [← get?_id hs]
  exact hn s (get?_mem hs)

theorem connectionCount_of_not_contains (hc : b.contains id = false) : b.connectionCount id = 0 := by
  rw [contains, Option.isSome_eq_false_iff, Option.isNone_iff_eq_none] at hc
  rw [connectionCount, hc]
  rfl

theorem connectionCount_change (hid : id.number < b.nextId) {c : Change Callback}
    (hr : c.removes id = false) : b.connectionCount id ≤ (b.change c).connectionCount id := by
  rcases get?_change hid c with ⟨hr', _⟩ | ⟨_, f, hg, hf⟩
  · exact absurd (hr.symm.trans hr') Bool.false_ne_true
  · rw [connectionCount, connectionCount, hg]
    cases b.get? id with
    | none => exact Nat.le_refl _
    | some s => exact (hf s).2

theorem connectionCount_changeAll (hid : id.number < b.nextId) {cs : List (Change Callback)}
    (hr : cs.any (Change.removes id) = false) :
    b.connectionCount id ≤ (b.changeAll cs).connectionCount id := by
  induction cs generalizing b with
  | nil => exact Nat.le_refl _
  | cons c cs ih =>
    rw [List.any_cons, Bool.or_eq_false_iff] at hr
    exact (connectionCount_change hid hr.1).trans
      (ih (Nat.lt_of_lt_of_le hid (nextId_change b c)) hr.2)

theorem connection?_changeAll (hm : b.Made h) (cs : List (Change Callback)) :
    (b.changeAll cs).connection? h =
      if cs.any (Change.removes h.signal) then none
      else (b.connection? h).map fun k =>
        { k with connected := k.connected && !cs.any (Change.cuts h) } := by
  induction cs generalizing b with
  | nil =>
    rw [changeAll]
    cases b.connection? h <;> simp
  | cons c cs ih =>
    rw [changeAll, ih (hm.change c), connection?_change hm, List.any_cons, List.any_cons]
    cases c.removes h.signal <;> cases cs.any (Change.removes h.signal) <;>
      cases c.cuts h <;> cases b.connection? h <;> simp

theorem connect_some (hc : (b.connect id callback).1 = some h) :
    ∃ s, b.get? id = some s ∧ h = ⟨id, s.connections.length⟩ := by
  unfold connect at hc
  split at hc
  · next s hs => exact ⟨s, hs, (Option.some.inj hc).symm⟩
  · cases hc

theorem connection?_connect (hc : (b.connect id callback).1 = some h) :
    (b.connect id callback).2.connection? h = some ⟨callback, true⟩ := by
  obtain ⟨s, hs, rfl⟩ := connect_some hc
  rw [connection?_eq, get?_connect, hs]
  simp

theorem Numbered.made_connect (hn : b.Numbered) (hc : (b.connect id callback).1 = some h) :
    (b.connect id callback).2.Made h := by
  have hn' : (b.connect id callback).2.Numbered := hn.change (.connect id callback)
  obtain ⟨s, hs, rfl⟩ := connect_some hc
  apply hn'.made
  rw [connectionCount, get?_connect, hs]
  simp

theorem isConnected_eq_false (hm : b.Made h) (hc : b.isConnected h = false)
    (cs : List (Change Callback)) : (b.changeAll cs).isConnected h = false := by
  rw [isConnected] at hc
  rw [isConnected, connection?_changeAll hm]
  cases hk : b.connection? h with
  | none => cases cs.any (Change.removes h.signal) <;> rfl
  | some k =>
    rw [hk, Option.any_some] at hc
    cases cs.any (Change.removes h.signal) <;> simp [hc]

theorem disconnect_fst (b : SignalBus Callback) (h : ConnectionHandle) :
    (b.disconnect h).1 = b.isConnected h := by
  unfold disconnect
  cases b.isConnected h <;> rfl

theorem isConnected_disconnect (b : SignalBus Callback) (h : ConnectionHandle) :
    (b.disconnect h).2.isConnected h = false := by
  rw [isConnected, connection?_disconnect]
  cases b.connection? h <;> rfl

theorem Numbered.made_of_isConnected (hn : b.Numbered) (hc : b.isConnected h = true) : b.Made h := by
  obtain ⟨callback, hl⟩ := isConnected_iff.1 hc
  obtain ⟨s, hs, hk⟩ := liveCallback?_iff.1 hl
  apply hn.made
  rw [connectionCount, hs]
  exact (List.getElem?_eq_some_iff.1 hk).1

theorem all_last_iff (h : ConnectionHandle) (cs : List (Change Callback)) :
    (∀ c ∈ cs, c.ends h = false) ↔
      cs.any (Change.removes h.signal) = false ∧ cs.any (Change.cuts h) = false := by
  simp only [Change.ends_eq, Bool.or_eq_false_iff, List.any_eq_false, Bool.not_eq_true,
    ← forall_and]

/-- What is given out by a bus, after changes. -/
structure Lasts (b : SignalBus Callback) (cs : List (Change Callback)) : Prop where
  /-- The number of a signal is not given to a later one. -/
  fresh : ∀ name name',
    (((b.create name).2.changeAll cs).create name').1 ≠ (b.create name).1
  named : ∀ name, ((b.create name).2.changeAll cs).name? (b.create name).1 =
    if cs.any (Change.removes (b.create name).1) then none else some name
  exists_iff : ∀ id callback h, (b.connect id callback).1 = some h →
    (((b.connect id callback).2.changeAll cs).contains h.signal = true ↔
      ∀ c ∈ cs, c.removes h.signal = false)
  /-- A handle stands for its callback while its signal exists, and for nothing afterwards. -/
  denotes : ∀ id callback h, (b.connect id callback).1 = some h →
    ((b.connect id callback).2.changeAll cs).connection? h =
      if cs.any (Change.removes h.signal) then none
      else some ⟨callback, !cs.any (Change.cuts h)⟩
  connected_iff : ∀ id callback h, (b.connect id callback).1 = some h →
    (((b.connect id callback).2.changeAll cs).isConnected h = true ↔
      ∀ c ∈ cs, c.ends h = false)
  counted : ∀ id, (b.changeAll cs).contains id = true →
    b.connectionCount id ≤ (b.changeAll cs).connectionCount id
  /-- A handle that was disconnected is not disconnected again. -/
  once : ∀ h, (b.disconnect h).1 = true →
    (((b.disconnect h).2.changeAll cs).disconnect h).1 = false
  others : ∀ (c : Change Callback) id, c.signal? b = some id → ∀ id', id' ≠ id →
    (b.change c).get? id' = b.get? id'

/-- Whatever was done to a bus since it was empty, and whatever is done to it afterwards. -/
theorem lasts_of_becomes (hb : (empty : SignalBus Callback).Becomes b)
    (cs : List (Change Callback)) : b.Lasts cs := by
  have hn := hb.numbered
  constructor
  case fresh =>
    intro name name' hid
    have hle := nextId_changeAll (b.create name).2 cs
    have heq : ((b.create name).2.changeAll cs).nextId = b.nextId := congrArg SignalId.number hid
    rw [heq] at hle
    exact absurd hle (Nat.not_succ_le_self _)
  case named =>
    intro name
    rw [name?_changeAll (Nat.lt_succ_self _), name?, get?_create_self hn]
    rfl
  case exists_iff =>
    intro id callback h hc
    obtain ⟨s, hs, rfl⟩ := connect_some hc
    have hold := (hn.made_connect hc).numbered
    have hhere : (b.connect id callback).2.contains id = true := by
      rw [contains, get?_connect, hs]
      rfl
    rw [contains_changeAll hold, hhere]
    simp
  case denotes =>
    intro id callback h hc
    rw [connection?_changeAll (hn.made_connect hc), connection?_connect hc]
    rfl
  case connected_iff =>
    intro id callback h hc
    rw [isConnected, connection?_changeAll (hn.made_connect hc), connection?_connect hc,
      all_last_iff]
    cases cs.any (Change.removes h.signal) <;> cases cs.any (Change.cuts h) <;> simp
  case counted =>
    intro id hc
    cases hhere : b.contains id with
    | false => rw [connectionCount_of_not_contains hhere]; exact Nat.zero_le _
    | true =>
      have hold := hn.old hhere
      rw [contains_changeAll hold, hhere, Bool.true_and, Bool.not_eq_true'] at hc
      exact connectionCount_changeAll hold hc
  case once =>
    intro h hd
    rw [disconnect_fst] at hd ⊢
    have hm : (b.disconnect h).2.Made h := (hn.made_of_isConnected hd).change (.disconnect h)
    exact isConnected_eq_false hm (isConnected_disconnect b h) cs
  case others =>
    intro c id hc id' hne
    exact get?_change_of_ne hc hne

theorem lasts_of_becomes_crossing :
    let b := (empty : SignalBus String).changeAll [.create "first", .create "second"]
    let cs : List (Change String) := [.connect ⟨2⟩ "b", .connect ⟨1⟩ "c", .disconnect ⟨⟨1⟩, 0⟩,
      .destroy ⟨2⟩, .create "third", .disconnect ⟨⟨2⟩, 0⟩]
    b.Lasts cs ∧ ((b.connect ⟨1⟩ "a").2.changeAll cs).connection? ⟨⟨1⟩, 0⟩ = some ⟨"a", false⟩ ∧
      ((b.connect ⟨2⟩ "a").2.changeAll cs).connection? ⟨⟨2⟩, 0⟩ = none ∧
      ¬ ((b.connect ⟨1⟩ "a").2.changeAll cs).isConnected ⟨⟨1⟩, 0⟩ = true := by
  intro b cs
  have hl : b.Lasts cs := lasts_of_becomes ⟨_, rfl⟩ cs
  refine ⟨hl, hl.denotes ⟨1⟩ "a" ⟨⟨1⟩, 0⟩ rfl, hl.denotes ⟨2⟩ "a" ⟨⟨2⟩, 0⟩ rfl, fun hc => ?_⟩
  have hends := (hl.connected_iff ⟨1⟩ "a" ⟨⟨1⟩, 0⟩ rfl).1 hc (.disconnect ⟨⟨1⟩, 0⟩)
    (by simp [cs])
  exact absurd hends (by decide)

end SignalBus

end Grapnel
