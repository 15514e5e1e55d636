import Grapnel.Signal.Bus
import Mathlib

namespace Grapnel

namespace SignalBus

variable {Callback : Type} {b b' b'' : SignalBus Callback} {h : ConnectionHandle} {id : SignalId}

inductive Change (Callback : Type) where
  | create (name : String)
  | connect (id : SignalId) (callback : Callback)
  | disconnect (h : ConnectionHandle)
  | destroy (id : SignalId)
  | clear

def change (b : SignalBus Callback) : Change Callback → SignalBus Callback
  | .create name => (b.create name).2
  | .connect id callback => (b.connect id callback).2
  | .disconnect h => (b.disconnect h).2
  | .destroy id => (b.destroy id).2
  | .clear => b.clear

def changeAll (b : SignalBus Callback) : List (Change Callback) → SignalBus Callback
  | [] => b
  | c :: cs => (b.change c).changeAll cs

/-- The change disconnects a connection, or removes its signal. -/
def Change.ends (h : ConnectionHandle) : Change Callback → Bool
  | .create _ | .connect _ _ => false
  | .disconnect h' => h' = h
  | .destroy id => id = h.signal
  | .clear => true

/-- The change removes a signal. -/
def Change.removes (id : SignalId) : Change Callback → Bool
  | .create _ | .connect _ _ | .disconnect _ => false
  | .destroy id' => id' = id
  | .clear => true

/-- The change disconnects a connection. -/
def Change.cuts (h : ConnectionHandle) : Change Callback → Bool
  | .disconnect h' => h' = h
  | _ => false

theorem Change.ends_eq (h : ConnectionHandle) (c : Change Callback) :
    c.ends h = (c.removes h.signal || c.cuts h) := by
  cases c <;> simp [ends, removes, cuts]

/-- Changes lead from one bus to another. -/
def Becomes (b b' : SignalBus Callback) : Prop := ∃ cs, b' = b.changeAll cs

theorem changeAll_append (cs cs' : List (Change Callback)) :
    b.changeAll (cs ++ cs') = (b.changeAll cs).changeAll cs' := by
  induction cs generalizing b with
  | nil => rfl
  | cons c cs ih => exact ih

theorem Becomes.refl : b.Becomes b := ⟨[], rfl⟩

theorem Becomes.trans (h : b.Becomes b') (h' : b'.Becomes b'') : b.Becomes b'' := by
  obtain ⟨cs, rfl⟩ := h
  obtain ⟨cs', rfl⟩ := h'
  exact ⟨cs ++ cs', (changeAll_append cs cs').symm⟩

theorem becomes_change (b : SignalBus Callback) (c : Change Callback) : b.Becomes (b.change c) :=
  ⟨[c], rfl⟩

theorem get?_id {s : Signal Callback} (hs : b.get? id = some s) : s.id = id := by
  have hid := List.find?_some hs
  simpa only [decide_eq_true_eq] using hid

theorem get?_mem {s : Signal Callback} (hs : b.get? id = some s) : s ∈ b.signals :=
  List.mem_of_find?_eq_some hs

theorem get?_update (b : SignalBus Callback) (id' : SignalId)
    {f : Signal Callback → Signal Callback} (hf : ∀ s, (f s).id = s.id) :
    (b.update id' f).get? id = (b.get? id).map fun s => if id = id' then f s else s := by
  have hg : ∀ s : Signal Callback, (if s.id = id' then f s else s).id = s.id := by
    intro s
    split
    · exact hf s
    · rfl
  have hfind : (b.update id' f).get? id =
      (b.get? id).map fun s => if s.id = id' then f s else s := by
    simp only [get?, update, List.find?_map]
    congr 1
    apply congrArg (List.find? · b.signals)
    funext s
    simp only [Function.comp_apply, hg]
  rw [hfind]
  cases hs : b.get? id with
  | none => rfl
  | some s => rw [Option.map_some, Option.map_some, get?_id hs]

theorem get?_create (b : SignalBus Callback) (name : String) (hid : id.number < b.nextId) :
    (b.create name).2.get? id = b.get? id := by
  have hne : ¬ (⟨b.nextId⟩ : SignalId) = id := by
    rintro rfl
    exact Nat.lt_irrefl _ hid
  simp only [get?, create, List.find?_append, List.find?_singleton, hne, decide_false,
    Bool.false_eq_true, if_false, Option.or_none]

theorem get?_destroy (b : SignalBus Callback) (id' : SignalId) :
    (b.destroy id').2.get? id = if id' = id then none else b.get? id := by
  simp only [get?, destroy, List.find?_filter]
  by_cases hid : id' = id
  · subst hid
    rw [if_pos rfl]
    apply List.find?_eq_none.2
    intro s _
    simp
  · rw [if_neg hid]
    apply congrArg (List.find? · b.signals)
    funext s
    by_cases hs : s.id = id
    · simp [hs, Ne.symm hid]
    · simp [hs]

theorem get?_connect (b : SignalBus Callback) (id' : SignalId) (callback : Callback) :
    (b.connect id' callback).2.get? id = (b.get? id).map fun s =>
      if id = id' then { s with connections := s.connections ++ [⟨callback, true⟩] } else s := by
  unfold connect
  cases hs : b.get? id' with
  | some s => exact get?_update b id' fun _ => rfl
  | none =>
    by_cases hid : id = id'
    · subst hid
      rw [hs]
      rfl
    · simp only [if_neg hid, Option.map_id']

theorem get?_disconnect (b : SignalBus Callback) (h : ConnectionHandle) :
    (b.disconnect h).2.get? id = (b.get? id).map fun s =>
      if id = h.signal ∧ b.isConnected h = true then
        { s with
          connections := s.connections.modify h.index fun c => { c with connected := false } }
      else s := by
  unfold disconnect
  cases b.isConnected h with
  | true =>
    simp only [if_true, and_true]
    exact get?_update b h.signal fun _ => rfl
  | false => simp only [Bool.false_eq_true, if_false, and_false, Option.map_id']

/-- The connection was made at some time: the number of its signal is taken, and while the signal
exists its place is. -/
structure Made (b : SignalBus Callback) (h : ConnectionHandle) : Prop where
  numbered : h.signal.number < b.nextId
  placed : ∀ s, b.get? h.signal = some s → h.index < s.connections.length

theorem Made.change (hm : b.Made h) (c : Change Callback) : (b.change c).Made h := by
  cases c with
  | create name =>
    refine ⟨Nat.lt_succ_of_lt hm.numbered, ?_⟩
    intro s hs
    apply hm.placed s
    rwa [← get?_create b name hm.numbered]
  | connect id callback =>
    refine ⟨?_, ?_⟩
    · simp only [SignalBus.change, connect]
      split <;> exact hm.numbered
    · intro s hs
      simp only [SignalBus.change, get?_connect, Option.map_eq_some_iff] at hs
      obtain ⟨s₀, hs₀, rfl⟩ := hs
      have hlt := hm.placed s₀ hs₀
      split
      · simp only [List.length_append]
        exact Nat.lt_add_right _ hlt
      · exact hlt
  | disconnect h' =>
    refine ⟨?_, ?_⟩
    · simp only [SignalBus.change, disconnect]
      split <;> exact hm.numbered
    · intro s hs
      simp only [SignalBus.change, get?_disconnect, Option.map_eq_some_iff] at hs
      obtain ⟨s₀, hs₀, rfl⟩ := hs
      have hlt := hm.placed s₀ hs₀
      split
      · simpa only [List.length_modify] using hlt
      · exact hlt
  | destroy id =>
    refine ⟨hm.numbered, ?_⟩
    intro s hs
    simp only [SignalBus.change, get?_destroy] at hs
    split at hs
    · cases hs
    · exact hm.placed s hs
  | clear => exact ⟨hm.numbered, nofun⟩

theorem connection?_eq (b : SignalBus Callback) (h : ConnectionHandle) :
    b.connection? h = (b.get? h.signal).bind fun s => s.connections[h.index]? := rfl

theorem connection?_disconnect (b : SignalBus Callback) (h : ConnectionHandle) :
    (b.disconnect h).2.connection? h =
      (b.connection? h).map fun k => { k with connected := false } := by
  rw [connection?_eq, get?_disconnect, connection?_eq]
  cases hs : b.get? h.signal with
  | none => rfl
  | some s =>
    simp only [Option.map_some, Option.bind_some, true_and]
    cases hc : b.isConnected h with
    | true => simp only [if_true, List.getElem?_modify_eq, Option.map_eq_map]
    | false =>
      rw [isConnected, connection?_eq, hs, Option.bind_some] at hc
      simp only [Bool.false_eq_true, if_false]
      cases hk : s.connections[h.index]? with
      | none => rfl
      | some k =>
        rw [hk] at hc
        cases k
        cases hc
        rfl

theorem connection?_disconnect_ne (b : SignalBus Callback) {h h' : ConnectionHandle} (hne : h' ≠ h) :
    (b.disconnect h').2.connection? h = b.connection? h := by
  rw [connection?_eq, get?_disconnect, connection?_eq]
  cases hs : b.get? h.signal with
  | none => rfl
  | some s =>
    simp only [Option.map_some, Option.bind_some]
    split
    · next hon =>
      have hi : h'.index ≠ h.index := by
        intro hi
        apply hne
        cases h
        cases h'
        cases hi
        cases hon.1
        rfl
      simp only [List.getElem?_modify_ne _ _ hi]
    · rfl

/-- What a change does to a connection that was made: it may be gone with its signal, and its mark
may be cleared. -/
theorem connection?_change (hm : b.Made h) (c : Change Callback) :
    (b.change c).connection? h =
      if c.removes h.signal then none
      else (b.connection? h).map fun k => { k with connected := k.connected && !c.cuts h } := by
  have hkeep (o : Option (Connection Callback)) :
      (o.map fun k => { k with connected := k.connected && !false }) = o := by
    cases o with
    | none => rfl
    | some k => simp
  cases c with
  | create name =>
    simp only [Change.removes, Change.cuts, Bool.false_eq_true, if_false, hkeep]
    rw [connection?_eq, SignalBus.change, get?_create b name hm.numbered, connection?_eq]
  | connect id callback =>
    simp only [Change.removes, Change.cuts, Bool.false_eq_true, if_false, hkeep]
    rw [connection?_eq, SignalBus.change, get?_connect, connection?_eq]
    cases hs : b.get? h.signal with
    | none => rfl
    | some s =>
      simp only [Option.map_some, Option.bind_some]
      split
      · rw [List.getElem?_append_left (hm.placed s hs)]
      · rfl
  | disconnect h' =>
    simp only [Change.removes, Bool.false_eq_true, if_false, SignalBus.change]
    by_cases hh : h' = h
    · subst hh
      simp only [Change.cuts, decide_true, Bool.not_true, Bool.and_false]
      exact connection?_disconnect b h'
    · simp only [Change.cuts, hh, decide_false, hkeep]
      exact connection?_disconnect_ne b hh
  | destroy id =>
    simp only [Change.removes, Change.cuts, hkeep, SignalBus.change, connection?_eq, get?_destroy,
      decide_eq_true_eq]
    split <;> rfl
  | clear => rfl

theorem liveCallback?_eq (b : SignalBus Callback) (h : ConnectionHandle) :
    b.liveCallback? h = (b.get? h.signal).bind fun s =>
      (s.connections[h.index]?).bind fun c => if c.connected then some c.callback else none := by
  simp only [liveCallback?, connection?, Option.bind_assoc]

theorem liveCallback?_iff {callback : Callback} :
    b.liveCallback? h = some callback ↔
      ∃ s, b.get? h.signal = some s ∧ s.connections[h.index]? = some ⟨callback, true⟩ := by
  rw [liveCallback?_eq]
  constructor
  · intro hl
    obtain ⟨s, hs, hl⟩ := Option.bind_eq_some_iff.1 hl
    obtain ⟨⟨callback', connected⟩, hc, hl⟩ := Option.bind_eq_some_iff.1 hl
    cases connected with
    | false => cases hl
    | true =>
      cases hl
      exact ⟨s, hs, hc⟩
  · rintro ⟨s, hs, hc⟩
    simp [hs, hc]

theorem isConnected_iff : b.isConnected h = true ↔ ∃ callback, b.liveCallback? h = some callback := by
  simp only [isConnected, liveCallback?, Option.any_eq_true, Option.bind_eq_some_iff]
  constructor
  · rintro ⟨c, hc, hon⟩
    exact ⟨c.callback, c, hc, if_pos hon⟩
  · rintro ⟨callback, c, hc, hon⟩
    refine ⟨c, hc, ?_⟩
    split at hon
    · assumption
    · cases hon

theorem liveCallback?_change (hm : b.Made h) (c : Change Callback) :
    (b.change c).liveCallback? h = if c.ends h then none else b.liveCallback? h := by
  rw [liveCallback?, connection?_change hm, liveCallback?, Change.ends_eq]
  cases c.removes h.signal with
  | true => rfl
  | false => cases c.cuts h <;> cases b.connection? h <;> simp

theorem liveCallback?_changeAll (hm : b.Made h) (cs : List (Change Callback)) :
    (b.changeAll cs).liveCallback? h =
      if cs.any (Change.ends h) then none else b.liveCallback? h := by
  induction cs generalizing b with
  | nil => rfl
  | cons c cs ih =>
    rw [changeAll, ih (hm.change c), liveCallback?_change hm, List.any_cons]
    cases c.ends h <;> cases cs.any (Change.ends h) <;> rfl

/-- Every signal has a number that was given out. -/
def Numbered (b : SignalBus Callback) : Prop := ∀ s ∈ b.signals, s.id.number < b.nextId

theorem Numbered.update (hn : b.Numbered) {f : Signal Callback → Signal Callback}
    (hf : ∀ s, (f s).id = s.id) : (b.update id f).Numbered := by
  intro s hs
  obtain ⟨s₀, hs₀, rfl⟩ := List.mem_map.1 hs
  have hlt := hn s₀ hs₀
  split
  · rw [hf]
    exact hlt
  · exact hlt

theorem Numbered.change (hn : b.Numbered) (c : Change Callback) : (b.change c).Numbered := by
  cases c with
  | create name =>
    intro s hs
    rcases List.mem_append.1 hs with hs | hs
    · exact Nat.lt_succ_of_lt (hn s hs)
    · cases List.mem_singleton.1 hs
      exact Nat.lt_succ_self _
  | connect id callback =>
    simp only [SignalBus.change, connect]
    split
    · exact hn.update fun _ => rfl
    · exact hn
  | disconnect h =>
    simp only [SignalBus.change, disconnect]
    split
    · exact hn.update fun _ => rfl
    · exact hn
  | destroy id => exact fun s hs => hn s (List.mem_filter.1 hs).1
  | clear => exact fun s hs => nomatch hs

theorem Becomes.numbered (h : (empty : SignalBus Callback).Becomes b) : b.Numbered := by
  obtain ⟨cs, rfl⟩ := h
  have hn : (empty : SignalBus Callback).Numbered := fun s hs => nomatch hs
  revert hn
  generalize (empty : SignalBus Callback) = b
  intro hn
  induction cs generalizing b with
  | nil => exact hn
  | cons c cs ih => exact ih _ (hn.change c)

theorem Numbered.made (hn : b.Numbered) (hi : h.index < b.connectionCount h.signal) : b.Made h := by
  rw [connectionCount] at hi
  cases hs : b.get? h.signal with
  | none =>
    rw [hs] at hi
    exact absurd hi (Nat.not_lt_zero _)
  | some s =>
    rw [hs] at hi
    refine ⟨?_, ?_⟩
    · rw [← get?_id hs]
      exact hn s (get?_mem hs)
    · intro s' hs'
      cases hs.symm.trans hs'
      exact hi

end SignalBus

end Grapnel
