import Grapnel.Proofs.Memory.Completion

namespace Grapnel

/-- The answer of a driver that was asked for the regions behind a handle. -/
structure Enumeration (D : Type) where
  handle : D
  answer : Except MemoryFault (List Region)

namespace MemoryDriver

variable {D W : Type}

/-- Works in a world that has a record beside it. -/
def beside {α R : Type} (f : W → α × W) (w : W × R) : α × (W × R) := ((f w.1).1, (f w.1).2, w.2)

/-- The same driver, with a record of its enumerations beside its world, the newest first. -/
def recorded (drv : MemoryDriver D W) : MemoryDriver D (W × List (Enumeration D)) where
  processId := drv.processId
  isWritable d w := drv.isWritable d w.1
  read d a size := beside (drv.read d a size)
  write d a content := beside (drv.write d a content)
  readVectored d requests := beside (drv.readVectored d requests)
  writeVectored d requests := beside (drv.writeVectored d requests)
  regions d w := ((drv.regions d w.1).1, (drv.regions d w.1).2, ⟨d, (drv.regions d w.1).1⟩ :: w.2)
  length_read := drv.length_read
  lengths_readVectored := drv.lengths_readVectored

theorem recorded_regions {drv : MemoryDriver D W} {d : D} {answer : Except MemoryFault (List Region)}
    {w w' : W × List (Enumeration D)} (h : drv.recorded.regions d w = (answer, w')) :
    w'.2 = ⟨d, answer⟩ :: w.2 := by
  cases h
  rfl

end MemoryDriver

/-- A question about the regions of the process. -/
inductive RegionQuery where
  | regions (refresh : Bool)
  | findRegion (a : Address)
  | moduleBase (fragment : String)

/-- Whether what is known is not relied on. -/
def RegionQuery.refreshes : RegionQuery → Bool
  | .regions refresh => refresh
  | _ => false

/-- What is done with the handle of a memory. -/
inductive HandleAction (D : Type) where
  | attach (handle : D)
  | detach
  | invalidate
  | query (q : RegionQuery)

/-- An action, and the enumerations that it took, the newest first. -/
structure Moment (D : Type) where
  action : HandleAction D
  asked : List (Enumeration D)

namespace MemoryWork

variable {D W : Type} (drv : MemoryDriver D W)

def inquire : RegionQuery → MemoryWork D W Unit
  | .regions refresh => discard (regions drv refresh)
  | .findRegion a => discard (findRegion drv a)
  | .moduleBase fragment => discard (moduleBase drv fragment)

end MemoryWork

namespace Memory

variable {D W : Type}

/-- The memory after an action. -/
def act (drv : MemoryDriver D W) (m : Memory D W) : HandleAction D → Memory D W
  | .attach handle => m.attach handle
  | .detach => m.detach.2
  | .invalidate => m.invalidate
  | .query q => (outcome (MemoryWork.inquire drv q) m).2

/-- The memory without the record beside the world of its driver. -/
def forget {R : Type} (m : Memory D (W × R)) : Memory D W := { m with world := m.world.1 }

/-- A memory and what was done with it, the newest first. Between two actions anything may happen to
the world of the driver. -/
inductive Reaches (drv : MemoryDriver D W) :
    List (Moment D) → Memory D (W × List (Enumeration D)) → Prop where
  | opened {scanChunk stringChunk : Option Nat} {w : W} :
      Reaches drv [] (open? scanChunk stringChunk (w, []))
  | acted {history : List (Moment D)} {m m' : Memory D (W × List (Enumeration D))}
      (action : HandleAction D) (w : W) :
      Reaches drv history m → { m with world := (w, []) }.act drv.recorded action = m' →
      Reaches drv (⟨action, m'.world.2⟩ :: history) m'

end Memory

namespace Moment

variable {D : Type}

/-- The handle that is attached, and what was done since it was. -/
def tenure? : List (Moment D) → Option (D × List (Moment D))
  | [] => none
  | moment :: earlier =>
    match moment.action with
    | .attach handle => some (handle, [])
    | .detach | .invalidate => none
    | .query _ => (tenure? earlier).map fun (handle, since) => (handle, moment :: since)

/-- Whether the last handle was dropped because it had become useless. -/
def dropped : List (Moment D) → Bool
  | [] => false
  | moment :: earlier =>
    match moment.action with
    | .attach _ => false
    | .invalidate => (tenure? earlier).isSome || dropped earlier
    | .detach | .query _ => dropped earlier

/-- Whether a handle was attached. -/
def attaches (moment : Moment D) : Bool :=
  match moment.action with
  | .attach _ => true
  | _ => false

/-- All enumerations, the newest first. -/
def enumerations (history : List (Moment D)) : List (Enumeration D) :=
  history.flatMap (·.asked)

end Moment

namespace Enumeration

variable {D : Type} {es es' : List (Enumeration D)} {regions : List Region}

/-- What the newest enumeration that succeeded has answered. -/
def latest? (es : List (Enumeration D)) : Option (List Region) :=
  es.findSome? (·.answer.toOption)

theorem latest?_append : latest? (es ++ es') = (latest? es).or (latest? es') :=
  List.findSome?_append

end Enumeration

namespace MemoryWork

variable {D W : Type} {drv : MemoryDriver D W} {m : Memory D W} {d : D} {refresh : Bool}

theorem outcome_regions_asked (hd : m.handle = some d) (h : m.known = none ∨ refresh = true) :
    outcome (regions drv refresh) m =
      match drv.regions d m.world with
      | (.ok regions, world) => (.ok regions, { m with known := some regions, world })
      | (.error fault, world) => (.error (.refused fault), { m with world }) := by
  rw [regions, outcome_bind, outcome_handle hd]
  dsimp only
  rw [outcome_bind, outcome_get]
  dsimp only
  split
  · next hk =>
    rw [hk] at h
    rcases h with h | h <;> cases h
  · rw [outcome_bind, perform, outcome_bind, outcome_onWorld]
    dsimp only
    cases drv.regions d m.world with
    | mk result world => cases result <;> rfl

theorem outcome_findRegion (a : Address) : outcome (findRegion drv a) m =
    ((outcome (regions drv false) m).1.map (·.find? (·.contains a)),
      (outcome (regions drv false) m).2) := by
  rw [findRegion, outcome_bind]
  cases outcome (regions drv false) m with
  | mk result m' => cases result <;> rfl

/-- The lowest start of a region whose path has a fragment. -/
def lowestStart? (fragment : String) (regions : List Region) : Option Address :=
  match regions.filter (·.pathContains fragment) with
  | [] => none
  | r :: rs => some ((rs.map (·.start)).foldl lower r.start)

theorem outcome_moduleBase (fragment : String) : outcome (moduleBase drv fragment) m =
    ((outcome (regions drv false) m).1.map (lowestStart? fragment),
      (outcome (regions drv false) m).2) := by
  rw [moduleBase, outcome_bind]
  cases outcome (regions drv false) m with
  | mk result m' =>
    cases result with
    | error stop => rfl
    | ok regions =>
      dsimp only [Except.map, lowestStart?]
      cases regions.filter (·.pathContains fragment) <;> rfl

theorem outcome_handle_none (hd : m.handle = none) :
    outcome (handle : MemoryWork D W D) m =
      (.error (.refused (if m.invalidated then .handleInvalidated else .notAttached)), m) := by
  have hh : m.handle? = .error (if m.invalidated then .handleInvalidated else .notAttached) := by
    rw [Memory.handle?, hd]
  rw [handle, outcome_bind, outcome_get]
  simp only [hh]
  rfl

/-- Work that is refused where there is no handle, for the reason for which there is none. -/
def NeedsHandle (x : MemoryWork D W α) : Prop :=
  ∀ m : Memory D W, m.handle = none →
    outcome x m = (.error (.refused (if m.invalidated then .handleInvalidated else .notAttached)), m)

namespace NeedsHandle

variable {α β : Type}

theorem handle : NeedsHandle (MemoryWork.handle : MemoryWork D W D) :=
  fun _ hd => outcome_handle_none hd

theorem bind {x : MemoryWork D W α} (h : NeedsHandle x) (f : α → MemoryWork D W β) :
    NeedsHandle (x >>= f) := by
  intro m hd
  rw [outcome_bind, h m hd]

theorem discard {x : MemoryWork D W α} (h : NeedsHandle x) : NeedsHandle (discard x) := by
  intro m hd
  rw [outcome_discard, h m hd]
  rfl

theorem regions : NeedsHandle (MemoryWork.regions drv refresh) := handle.bind _

theorem read (a : Address) (size : Nat) : NeedsHandle (MemoryWork.read drv a size) := handle.bind _

theorem write (a : Address) (content : List UInt8) : NeedsHandle (MemoryWork.write drv a content) :=
  handle.bind _

theorem readNumber (a : Address) (bytes : Nat) : NeedsHandle (MemoryWork.readNumber drv a bytes) :=
  (read a bytes).bind _

theorem scan (p : BytePattern) (start : Address) (length : Nat) (firstOnly : Bool) :
    NeedsHandle (MemoryWork.scan drv p start length firstOnly) := handle.bind _

theorem inquire (q : RegionQuery) : NeedsHandle (MemoryWork.inquire drv q) := by
  cases q with
  | regions refresh => exact regions.discard
  | findRegion a => exact (regions.bind _).discard
  | moduleBase fragment => exact (regions.bind _).discard

end NeedsHandle

/-- The ways in which the question for the regions goes. -/
inductive Answered (drv : MemoryDriver D W) (m : Memory D W) :
    Except Stop (List Region) × Memory D W → Prop where
  | unattached (fault : MemoryFault) : m.handle = none → Answered drv m (.error (.refused fault), m)
  | known {regions : List Region} : m.known = some regions → Answered drv m (.ok regions, m)
  | enumerated {d : D} {regions : List Region} {world : W} : m.handle = some d →
      drv.regions d m.world = (.ok regions, world) →
      Answered drv m (.ok regions, { m with known := some regions, world })
  | refused {d : D} {fault : MemoryFault} {world : W} : m.handle = some d →
      drv.regions d m.world = (.error fault, world) →
      Answered drv m (.error (.refused fault), { m with world })

theorem answered_regions : Answered drv m (outcome (regions drv refresh) m) := by
  cases hd : m.handle with
  | none =>
    rw [NeedsHandle.regions m hd]
    exact .unattached _ hd
  | some d =>
    by_cases h : m.known = none ∨ refresh = true
    · rw [outcome_regions_asked hd h]
      cases hr : drv.regions d m.world with
      | mk answer world =>
        cases answer with
        | ok regions => exact .enumerated hd hr
        | error fault => exact .refused hd hr
    · obtain ⟨hk, hrefresh⟩ := not_or.1 h
      obtain ⟨regions, hk⟩ := Option.ne_none_iff_exists'.1 hk
      rw [eq_false_of_ne_true hrefresh, outcome_regions_known hd hk]
      exact .known hk

/-- A question does to the memory what the question for the regions does. -/
theorem outcome_inquire (q : RegionQuery) :
    (outcome (inquire drv q) m).2 = (outcome (regions drv q.refreshes) m).2 := by
  cases q with
  | regions refresh => exact congrArg Prod.snd (outcome_discard _ m)
  | findRegion a => rw [inquire, outcome_discard, outcome_findRegion]; rfl
  | moduleBase fragment => rw [inquire, outcome_discard, outcome_moduleBase]; rfl

end MemoryWork

namespace Memory

open Moment Enumeration

variable {D W : Type} {drv : MemoryDriver D W} {history : List (Moment D)}
  {m m' : Memory D (W × List (Enumeration D))}

/-- What a memory holds after a history. -/
structure Tells (history : List (Moment D)) (m : Memory D (W × List (Enumeration D))) : Prop where
  handle : m.handle = (tenure? history).map (·.1)
  invalidated : m.invalidated = dropped history
  generation : m.generation = history.countP attaches
  known : ∀ d since, tenure? history = some (d, since) →
    m.known = latest? (enumerations since) ∧ ∀ e ∈ enumerations since, e.handle = d

namespace Tells

theorem opened {scanChunk stringChunk : Option Nat} {w : W} :
    Tells (D := D) [] (open? scanChunk stringChunk (w, [])) :=
  ⟨rfl, rfl, rfl, nofun⟩

theorem onWorld (h : Tells history m) (w : W × List (Enumeration D)) :
    Tells history { m with world := w } :=
  ⟨h.handle, h.invalidated, h.generation, h.known⟩

theorem attach (h : Tells history m) (d : D) (asked : List (Enumeration D)) :
    Tells (⟨.attach d, asked⟩ :: history) (m.attach d) where
  handle := rfl
  invalidated := rfl
  generation := by
    rw [List.countP_cons_of_pos rfl, ← h.generation]
    rfl
  known d' since hs := by
    cases hs
    exact ⟨rfl, nofun⟩

theorem detach (h : Tells history m) (asked : List (Enumeration D)) :
    Tells (⟨.detach, asked⟩ :: history) m.detach.2 where
  handle := rfl
  invalidated := h.invalidated
  generation := by
    rw [List.countP_cons_of_neg Bool.false_ne_true, ← h.generation]
    rfl
  known _ _ hs := nomatch hs

theorem invalidate (h : Tells history m) (asked : List (Enumeration D)) :
    Tells (⟨.invalidate, asked⟩ :: history) m.invalidate where
  handle := by
    unfold Memory.invalidate
    split
    · rfl
    · assumption
  invalidated := by
    have hh : (tenure? history).isSome = m.handle.isSome := by rw [h.handle, Option.isSome_map]
    rw [dropped, hh, ← h.invalidated]
    unfold Memory.invalidate
    split
    · next hd =>
      rw [hd]
      rfl
    · next hd =>
      rw [hd]
      rfl
  generation := by
    rw [List.countP_cons_of_neg Bool.false_ne_true, ← h.generation]
    unfold Memory.invalidate
    split <;> rfl
  known _ _ hs := nomatch hs

/-- What enumerations through the present handle tell is what is known from then on. -/
theorem learn (h : Tells history m) (q : RegionQuery) {es : List (Enumeration D)}
    (hes : ∀ e ∈ es, m.handle = some e.handle) (w : W × List (Enumeration D)) :
    Tells (⟨.query q, es⟩ :: history)
      { m with known := (latest? es).or m.known, world := w } where
  handle := by
    rw [tenure?, Option.map_map]
    exact h.handle
  invalidated := h.invalidated
  generation := by
    rw [List.countP_cons_of_neg Bool.false_ne_true]
    exact h.generation
  known d since hs := by
    rw [tenure?, Option.map_eq_some_iff] at hs
    obtain ⟨⟨_, earlier⟩, hs, heq⟩ := hs
    cases heq
    obtain ⟨hk, hof⟩ := h.known d earlier hs
    have hsince : enumerations (⟨.query q, es⟩ :: earlier) = es ++ enumerations earlier :=
      List.flatMap_cons
    rw [hsince, latest?_append, hk]
    refine ⟨rfl, ?_⟩
    intro e he
    rcases List.mem_append.1 he with he | he
    · have hd := h.handle
      rw [hs, hes e he] at hd
      exact Option.some.inj hd
    · exact hof e he

theorem query (h : Tells history m) (hm : m.world.2 = []) (q : RegionQuery) :
    Tells (⟨.query q, (outcome (MemoryWork.inquire drv.recorded q) m).2.world.2⟩ :: history)
      (outcome (MemoryWork.inquire drv.recorded q) m).2 := by
  rw [MemoryWork.outcome_inquire]
  have hnothing : Tells (⟨.query q, m.world.2⟩ :: history) m := by
    rw [hm]
    exact h.learn q (List.forall_mem_nil _) m.world
  have hone : ∀ d answer, m.handle = some d →
      ∀ e ∈ ([⟨d, answer⟩] : List (Enumeration D)), m.handle = some e.handle := by
    intro d answer hd e he
    rw [List.mem_singleton.1 he, hd]
  generalize hr : outcome (MemoryWork.regions drv.recorded q.refreshes) m = result
  have hways : MemoryWork.Answered drv.recorded m result := hr ▸ MemoryWork.answered_regions
  cases hways with
  | unattached => exact hnothing
  | known => exact hnothing
  | @enumerated d regions world hd hans =>
    have hes : world.2 = [⟨d, .ok regions⟩] := hm ▸ MemoryDriver.recorded_regions hans
    rw [hes]
    exact h.learn q (hone d (.ok regions) hd) world
  | @refused d fault world hd hans =>
    have hes : world.2 = [⟨d, .error fault⟩] := hm ▸ MemoryDriver.recorded_regions hans
    rw [hes]
    exact h.learn q (hone d (.error fault) hd) world

theorem act (h : Tells history m) (hm : m.world.2 = []) (action : HandleAction D) :
    Tells (⟨action, (m.act drv.recorded action).world.2⟩ :: history) (m.act drv.recorded action) := by
  cases action with
  | attach d => exact h.attach d _
  | detach => exact h.detach _
  | invalidate => exact h.invalidate _
  | query q => exact h.query hm q

end Tells

end Memory

end Grapnel
