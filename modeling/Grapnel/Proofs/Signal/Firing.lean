import Grapnel.Proofs.Signal.Change
import Grapnel.Signal.Program

namespace Grapnel

open SignalBus

namespace Delivery

variable {W Callback : Type}

/-- Callbacks do nothing to the bus but what a bus offers. -/
def Orderly (d : Delivery W Callback) : Prop :=
  ∀ callback w, (d.bus w).Becomes (d.bus (d.invoke callback w))

/-- The same callbacks, with a record of what is invoked, and in which world, beside their world. -/
def recorded (d : Delivery W Callback) : Delivery (W × List (Callback × W)) Callback where
  bus p := d.bus p.1
  invoke callback p := (d.invoke callback p.1, p.2 ++ [(callback, p.1)])

/-- The turn of one connection: the world in which it comes, and the callback, if it is invoked. -/
structure Turn (W Callback : Type) where
  world : W
  invoked : Option Callback

namespace Turn

/-- The world that a turn leaves. -/
def after (d : Delivery W Callback) (t : Turn W Callback) : W :=
  match t.invoked with
  | some callback => d.invoke callback t.world
  | none => t.world

def invocation (t : Turn W Callback) : Option (Callback × W) := t.invoked.map (·, t.world)

end Turn

/-- Each turn comes in the world that the one before it has left. -/
inductive Course (d : Delivery W Callback) : W → List (Turn W Callback) → W → Prop where
  | nil : Course d w [] w
  | cons {t : Turn W Callback} : Course d (t.after d) ts w' → Course d t.world (t :: ts) w'

variable {d : Delivery W Callback} {id : SignalId} {w w' : W} {count index invoked : Nat}

/-- The turns of `count` connections from `index` on. -/
def turnsFrom (d : Delivery W Callback) (id : SignalId) :
    (count index : Nat) → W → List (Turn W Callback)
  | 0, _, _ => []
  | count + 1, index, w =>
    let t : Turn W Callback := ⟨w, (d.bus w).liveCallback? ⟨id, index⟩⟩
    t :: d.turnsFrom id count (index + 1) (t.after d)

theorem length_turnsFrom : (d.turnsFrom id count index w).length = count := by
  induction count generalizing index w with
  | zero => rfl
  | succ count ih => rw [turnsFrom, List.length_cons, ih]

theorem getElem?_turnsFrom {t : Turn W Callback} {i : Nat}
    (ht : (d.turnsFrom id count index w)[i]? = some t) :
    t.invoked = (d.bus t.world).liveCallback? ⟨id, index + i⟩ := by
  induction count generalizing index w i with
  | zero => cases ht
  | succ count ih =>
    rw [turnsFrom] at ht
    cases i with
    | zero =>
      cases ht
      rfl
    | succ i =>
      have hi := ih ht
      rwa [Nat.add_right_comm, Nat.add_assoc] at hi

theorem fireFrom_succ : d.fireFrom id (count + 1) index invoked w =
    d.fireFrom id count (index + 1)
      (invoked + ((d.bus w).liveCallback? ⟨id, index⟩).toList.length)
      (Turn.after d ⟨w, (d.bus w).liveCallback? ⟨id, index⟩⟩) := by
  rw [fireFrom]
  cases (d.bus w).liveCallback? ⟨id, index⟩ <;> rfl

theorem course_fireFrom :
    d.Course w (d.turnsFrom id count index w) (d.fireFrom id count index invoked w).2 := by
  induction count generalizing index invoked w with
  | zero => exact .nil
  | succ count ih =>
    rw [fireFrom_succ, turnsFrom]
    exact .cons (t := ⟨w, _⟩) ih

theorem count_fireFrom : (d.fireFrom id count index invoked w).1 =
    invoked + ((d.turnsFrom id count index w).filterMap (·.invoked)).length := by
  induction count generalizing index invoked w with
  | zero => rfl
  | succ count ih =>
    rw [fireFrom_succ, ih, turnsFrom, Nat.add_assoc]
    apply congrArg (invoked + ·)
    cases (d.bus w).liveCallback? ⟨id, index⟩ with
    | none => exact Nat.zero_add _
    | some callback => exact Nat.add_comm ..

/-- A firing with a record is the plain firing, and the record tells the turns that were taken. -/
theorem recorded_fireFrom (index invoked : Nat) (w : W) (record : List (Callback × W)) :
    d.recorded.fireFrom id count index invoked (w, record) =
      ((d.fireFrom id count index invoked w).1, (d.fireFrom id count index invoked w).2,
        record ++ (d.turnsFrom id count index w).filterMap Turn.invocation) := by
  induction count generalizing index invoked w record with
  | zero => simp only [fireFrom, turnsFrom, List.filterMap_nil, List.append_nil]
  | succ count ih =>
    rw [fireFrom_succ, fireFrom_succ, turnsFrom]
    change d.recorded.fireFrom id count (index + 1)
      (invoked + ((d.bus w).liveCallback? ⟨id, index⟩).toList.length)
      (Turn.after d.recorded ⟨(w, record), (d.bus w).liveCallback? ⟨id, index⟩⟩) = _
    cases (d.bus w).liveCallback? ⟨id, index⟩ with
    | none => exact ih _ _ _ record
    | some callback =>
      have hnext := ih (index + 1) (invoked + 1) (d.invoke callback w) (record ++ [(callback, w)])
      rw [List.append_assoc] at hnext
      exact hnext

/-- Up to every turn the bus changes by what a bus offers. -/
theorem Course.becomes (hd : d.Orderly) {turns : List (Turn W Callback)}
    (hc : d.Course w turns w') :
    (d.bus w).Becomes (d.bus w') ∧ ∀ t ∈ turns, (d.bus w).Becomes (d.bus t.world) := by
  induction hc with
  | nil => exact ⟨.refl, nofun⟩
  | @cons ts w' t _ ih =>
    have hstep : (d.bus t.world).Becomes (d.bus (t.after d)) := by
      rw [Turn.after]
      split
      · exact hd _ _
      · exact .refl
    refine ⟨hstep.trans ih.1, ?_⟩
    intro u hu
    rcases List.mem_cons.1 hu with rfl | hu
    · exact .refl
    · exact hstep.trans (ih.2 u hu)

theorem Orderly.fire (hd : d.Orderly) (id : SignalId) (w : W) :
    (d.bus w).Becomes (d.bus (d.fire id w).2) :=
  (course_fireFrom.becomes hd).1

end Delivery

namespace Signal.Stage

theorem becomes_askAll {ask : Stage → Request → Answer × Stage}
    (h : ∀ (s : Stage) r, s.bus.Becomes (ask s r).2.bus) (s : Stage) (rs : List Request) :
    s.bus.Becomes (askAll ask s rs).2.bus := by
  induction rs generalizing s with
  | nil => exact .refl
  | cons r rs ih => exact (h s r).trans (ih _)

theorem orderly_of_ask {ask : Stage → Request → Answer × Stage}
    (h : ∀ (s : Stage) r, s.bus.Becomes (ask s r).2.bus) : (delivery ask).Orderly :=
  fun callback s => becomes_askAll h s ((s.callbacks.lookup callback).getD [])

theorem becomes_ask_of_ne_fire (fuel : Nat) (s : Stage) {r : Request} (hr : ∀ id, r ≠ .fire id) :
    s.bus.Becomes (ask fuel s r).2.bus := by
  cases r with
  | create name =>
    rw [ask]
    exact becomes_change s.bus (.create name)
  | connect id callback =>
    rw [ask]
    exact becomes_change s.bus (.connect id callback)
  | disconnect h =>
    rw [ask]
    exact becomes_change s.bus (.disconnect h)
  | destroy id =>
    rw [ask]
    exact becomes_change s.bus (.destroy id)
  | clear =>
    rw [ask]
    exact becomes_change s.bus .clear
  | isConnected | connectionCount | name | contains | length =>
    rw [ask]
    exact .refl
  | fire id => exact absurd rfl (hr id)

/-- What a program asks for is done by changes, firings included, however deep they are nested. -/
theorem becomes_ask (fuel : Nat) (s : Stage) (r : Request) : s.bus.Becomes (ask fuel s r).2.bus := by
  induction fuel generalizing s r with
  | zero =>
    cases r with
    | fire => exact .refl
    | _ => exact becomes_ask_of_ne_fire 0 s nofun
  | succ fuel ih =>
    cases r with
    | fire id => exact (orderly_of_ask ih).fire id { s with seen := [] }
    | _ => exact becomes_ask_of_ne_fire (fuel + 1) s nofun

end Signal.Stage

namespace Delivery

variable {W Callback : Type} {d : Delivery W Callback} {id : SignalId} {w : W}

def callbacks (b : SignalBus Callback) (id : SignalId) : List Callback :=
  ((b.get? id).elim [] (·.connections)).map (·.callback)

theorem length_callbacks (b : SignalBus Callback) :
    (callbacks b id).length = b.connectionCount id := by
  rw [callbacks, connectionCount, List.length_map]
  cases b.get? id <;> rfl

theorem getElem?_callbacks {b : SignalBus Callback} {i : Nat} {callback : Callback}
    (hl : b.liveCallback? ⟨id, i⟩ = some callback) : (callbacks b id)[i]? = some callback := by
  obtain ⟨s, hs, hc⟩ := liveCallback?_iff.1 hl
  simp only at hs hc
  rw [callbacks, hs, Option.elim_some, List.getElem?_map, hc, Option.map_some]

theorem sublist_of_places {α β : Type} {f : α → Option β} {xs : List α} {ys : List β}
    (hl : xs.length = ys.length)
    (h : ∀ (i : Nat) x y, xs[i]? = some x → f x = some y → ys[i]? = some y) :
    (xs.filterMap f).Sublist ys := by
  induction xs generalizing ys with
  | nil => exact List.nil_sublist ys
  | cons x xs ih =>
    cases ys with
    | nil => cases hl
    | cons y ys =>
      have hs : (xs.filterMap f).Sublist ys := by
        apply ih (Nat.succ.inj hl)
        intro i x' y' hx hf
        exact h (i + 1) x' y' hx hf
      cases hf : f x with
      | none =>
        rw [List.filterMap_cons_none hf]
        exact hs.cons y
      | some y' =>
        rw [List.filterMap_cons_some hf]
        cases h 0 x y' rfl hf
        exact hs.cons_cons y

/-- What a firing does. There is one turn for each connection that exists at the beginning, in the
order of the connections, and nothing else is invoked. -/
structure Fires (d : Delivery W Callback) (id : SignalId) (w : W) (turns : List (Turn W Callback)) :
    Prop where
  visits : turns.length = (d.bus w).connectionCount id
  course : d.Course w turns (d.fire id w).2
  recorded : d.recorded.fire id (w, []) =
    ((d.fire id w).1, (d.fire id w).2, turns.filterMap Turn.invocation)
  counted : (d.fire id w).1 = (turns.filterMap (·.invoked)).length
  /-- A turn is taken when the signal exists and the connection is connected. -/
  live : ∀ (i : Nat) t, turns[i]? = some t → ∀ callback, t.invoked = some callback ↔
    ∃ s, (d.bus t.world).get? id = some s ∧ s.connections[i]? = some ⟨callback, true⟩
  changed : ∀ t ∈ turns, (d.bus w).Becomes (d.bus t.world)
  /-- That is when it was connected at the beginning, and nothing done since has ended it. -/
  lasting : ∀ (i : Nat) t, turns[i]? = some t →
    ∀ cs, d.bus t.world = (d.bus w).changeAll cs → ∀ callback, t.invoked = some callback ↔
      (∃ s, (d.bus w).get? id = some s ∧ s.connections[i]? = some ⟨callback, true⟩) ∧
        ∀ c ∈ cs, c.ends ⟨id, i⟩ = false
  /-- No connection is invoked twice. -/
  once : (turns.filterMap (·.invoked)).Sublist (callbacks (d.bus w) id)

/-- A connection that was made is invoked at a later time if it is connected now and nothing ends it
until then. -/
theorem invoked_iff_lasting {b : SignalBus Callback} {h : ConnectionHandle} (hm : b.Made h)
    (cs : List (Change Callback)) (callback : Callback) :
    (b.changeAll cs).liveCallback? h = some callback ↔
      b.liveCallback? h = some callback ∧ ∀ c ∈ cs, c.ends h = false := by
  rw [liveCallback?_changeAll hm]
  cases hany : cs.any (Change.ends h) with
  | true =>
    obtain ⟨c, hc, he⟩ := List.any_eq_true.1 hany
    constructor
    · nofun
    · intro hr
      exact absurd (hr.2 c hc) (ne_false_of_eq_true he)
  | false =>
    have hnone : ∀ c ∈ cs, c.ends h = false := by
      intro c hc
      exact eq_false_of_ne_true (List.any_eq_false.1 hany c hc)
    exact (and_iff_left hnone).symm

/-- On a bus that was made by changes from the empty one, a firing whose callbacks do to the bus
whatever they like visits each connection once, and invokes those that last until their turn. -/
theorem fire_exact (hd : d.Orderly) (id : SignalId) (w : W)
    (hb : (SignalBus.empty : SignalBus Callback).Becomes (d.bus w)) : ∃ turns, d.Fires id w turns := by
  -- what is connected later has a place behind these, and no turn
  have hmade : ∀ i < (d.bus w).connectionCount id, (d.bus w).Made ⟨id, i⟩ := by
    intro i hi
    exact hb.numbered.made hi
  have hplace : ∀ (i : Nat) t, (d.turnsFrom id ((d.bus w).connectionCount id) 0 w)[i]? = some t →
      i < (d.bus w).connectionCount id ∧ t.invoked = (d.bus t.world).liveCallback? ⟨id, i⟩ := by
    intro i t ht
    have hi := getElem?_turnsFrom ht
    rw [Nat.zero_add] at hi
    refine ⟨?_, hi⟩
    have hlt := (List.getElem?_eq_some_iff.1 ht).1
    rwa [length_turnsFrom] at hlt
  have hcourse : d.Course w (d.turnsFrom id ((d.bus w).connectionCount id) 0 w) (d.fire id w).2 :=
    course_fireFrom
  have hlasting : ∀ (i : Nat) t, (d.turnsFrom id ((d.bus w).connectionCount id) 0 w)[i]? = some t →
      ∀ cs, d.bus t.world = (d.bus w).changeAll cs → ∀ callback, t.invoked = some callback ↔
        (d.bus w).liveCallback? ⟨id, i⟩ = some callback ∧ ∀ c ∈ cs, c.ends ⟨id, i⟩ = false := by
    intro i t ht cs hcs callback
    obtain ⟨hi, hinv⟩ := hplace i t ht
    rw [hinv, hcs]
    exact invoked_iff_lasting (hmade i hi) cs callback
  refine ⟨d.turnsFrom id ((d.bus w).connectionCount id) 0 w, ?_⟩
  constructor
  case visits => exact length_turnsFrom
  case course => exact hcourse
  case recorded => exact recorded_fireFrom 0 0 w []
  case counted => exact count_fireFrom.trans (Nat.zero_add _)
  case live =>
    intro i t ht callback
    rw [(hplace i t ht).2]
    exact liveCallback?_iff
  case changed => exact (hcourse.becomes hd).2
  case lasting =>
    intro i t ht cs hcs callback
    rw [hlasting i t ht cs hcs callback]
    exact and_congr_left fun _ => liveCallback?_iff
  case once =>
    apply sublist_of_places
    · rw [length_turnsFrom, length_callbacks]
    · intro i t callback ht hinv
      obtain ⟨cs, hcs⟩ := (hcourse.becomes hd).2 t (List.mem_of_getElem? ht)
      exact getElem?_callbacks ((hlasting i t ht cs hcs callback).1 hinv).1

/-- Four connections: the first disconnects the second and makes a fifth, the third fires another
signal, destroys its own and has a new one created. -/
def crossing : Signal.Stage where
  callbacks := [("a", [.disconnect ⟨⟨1⟩, 1⟩, .connect ⟨1⟩ "e"]),
    ("c", [.fire ⟨2⟩, .destroy ⟨1⟩, .create "third", .connect ⟨3⟩ "d"])]
  bus := SignalBus.empty.changeAll [.create "first", .create "second", .connect ⟨1⟩ "a",
    .connect ⟨1⟩ "b", .connect ⟨1⟩ "c", .connect ⟨1⟩ "d", .connect ⟨2⟩ "a"]
  seen := []

theorem fire_exact_crossing : ∃ turns,
    (Signal.Stage.delivery (Signal.Stage.ask 2)).Fires ⟨1⟩ crossing turns ∧
      turns.length = 4 ∧ turns.filterMap (·.invoked) = ["a", "c"] := by
  have hd := Signal.Stage.orderly_of_ask (Signal.Stage.becomes_ask 2)
  obtain ⟨turns, hf⟩ := fire_exact hd ⟨1⟩ crossing ⟨_, rfl⟩
  refine ⟨turns, hf, hf.visits, ?_⟩
  have hr : turns.filterMap Turn.invocation = _ := (congrArg (·.2.2) hf.recorded).symm
  have hi : turns.filterMap (·.invoked) = (turns.filterMap Turn.invocation).map (·.1) := by
    simp [List.map_filterMap, Turn.invocation, Function.comp_def]
  rw [hi, hr]
  rfl

end Delivery

end Grapnel
