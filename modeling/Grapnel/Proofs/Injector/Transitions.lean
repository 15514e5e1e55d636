import Grapnel.Proofs.Injector.Consistency

namespace Grapnel

namespace InjectionState

inductive Move : InjectionState → InjectionState → Prop
  | scan {s : InjectionState} : s ∈ [.idle, .found, .detached, .failed] → Move s .scanning
  | find : Move .scanning .found
  | miss : Move .scanning .idle
  | attach : Move .found .attaching
  | settle : Move .attaching .injected
  | fail : Move .attaching .failed
  | begin : Move .injected .executing
  | finish : Move .executing .injected
  | detach {s : InjectionState} : s ∈ [.injected, .executing] → Move s .detached
  | lose {s : InjectionState} : s ∈ [.injected, .executing] → Move s .idle

/-- States that follow one after the other by moves, up to the last one. -/
inductive Path : InjectionState → List InjectionState → InjectionState → Prop
  | stay {s : InjectionState} : Path s [] s
  | move {s s' s'' : InjectionState} {states : List InjectionState} :
      Move s s' → Path s' states s'' → Path s (s' :: states) s''

variable {s s' s'' : InjectionState} {states more : List InjectionState}

theorem Path.append (h : Path s states s') (h' : Path s' more s'') : Path s (states ++ more) s'' := by
  induction h with
  | stay => exact h'
  | move hmove _ ih => exact .move hmove (ih h')

theorem Path.last (h : Path s states s') : states.getLast?.getD s = s' := by
  induction h with
  | stay => rfl
  | move _ _ ih =>
    rw [List.getLast?_cons]
    exact ih

theorem Move.of_canScan (h : s.canScan = true) : Move s .scanning := by
  apply Move.scan
  revert h
  cases s <;> decide

theorem mem_of_isAttached (h : s.isAttached = true) :
    s ∈ [InjectionState.injected, InjectionState.executing] := by
  revert h
  cases s <;> decide

end InjectionState

namespace Injector

variable {D W : Type} {tools : InjectorTools D W} {i i' i'' j : Injector D W}
  {events more made told : List (InjectionState × String)} {cut : Bool}

open InjectionState

def states (events : List (InjectionState × String)) : List InjectionState := events.map Prod.fst

theorem states_append : states (events ++ more) = states events ++ states more := List.map_append

/-- Changes lead from one injector to the other, and they are still to be told. -/
structure Makes (i i' : Injector D W) (events : List (InjectionState × String)) : Prop where
  untold : i'.untold = i.untold ++ events
  path : Path i.state (states events) i'.state

namespace Makes

theorem nothing (hu : i'.untold = i.untold) (hs : i'.state = i.state) : Makes i i' [] where
  untold := by rw [hu, List.append_nil]
  path := by
    rw [hs]
    exact .stay

theorem one {s : InjectionState} {message : String} (hu : i'.untold = i.untold ++ [(s, message)])
    (hs : i'.state = s) (h : Move i.state s) : Makes i i' [(s, message)] where
  untold := hu
  path := by
    rw [hs]
    exact .move h .stay

theorem trans (h : Makes i i' events) (h' : Makes i' i'' more) : Makes i i'' (events ++ more) where
  untold := by rw [h'.untold, h.untold, List.append_assoc]
  path := by
    rw [states_append]
    exact h.path.append h'.path

end Makes

/-- A handle is held while the injector is attached, and after an attempt to attach was cut short. -/
def HoldsBy (i : Injector D W) : Prop :=
  (∃ handle, i.memory.handle = some handle) ↔ i.state.isAttached = true ∨ i.state = .attaching

inductive Scans (i : Injector D W) : Bool × Injector D W → Prop
  | found {j : Injector D W} (message message' : String) : i.state.canScan = true →
      j.state = .found → j.untold = i.untold ++ [(.scanning, message), (.found, message')] →
      j.memory.handle = i.memory.handle → Scans i (true, j)
  | missed {j : Injector D W} (message message' : String) : i.state.canScan = true →
      j.state = .idle → j.untold = i.untold ++ [(.scanning, message), (.idle, message')] →
      j.memory.handle = i.memory.handle → Scans i (false, j)
  | ignored : ¬ i.state.canScan = true → Scans i (false, i)

theorem scans (tools : InjectorTools D W) (i : Injector D W) : Scans i (i.scan tools) := by
  rw [scan]
  split
  · next hc =>
    dsimp only [transition, miss]
    split
    · exact .found _ _ hc rfl (List.append_cons ..).symm rfl
    · exact .missed _ _ hc rfl (List.append_cons ..).symm rfl
    · exact .missed _ _ hc rfl (List.append_cons ..).symm rfl
  · next hc => exact .ignored hc

inductive Attempts (tools : InjectorTools D W) (i : Injector D W) :
    Except Trap Bool × Injector D W → Prop
  | attached {j : Injector D W} (message message' : String) (handle : D) : j.state = .injected →
      j.untold = i.untold ++ [(.attaching, message), (.injected, message')] →
      j.memory.handle = some handle → Attempts tools i (.ok true, j)
  | failed {j : Injector D W} (message message' : String) : j.state = .failed →
      j.untold = i.untold ++ [(.attaching, message), (.failed, message')] →
      j.memory.handle = none → Attempts tools i (.ok false, j)
  | cut {j : Injector D W} (trap : Trap) (message : String) :
      j.untold = i.untold ++ [(.attaching, message)] → Abandoned tools j →
      Attempts tools i (.error trap, j)

theorem attempts (tools : InjectorTools D W) {p : ProcessInfo} (hp : i.target = some p)
    (hh : i.memory.handle = none) : Attempts tools i (i.attachTo tools p.pid) := by
  have hopens := opens tools i p.pid
  generalize i.attachTo tools p.pid = r at hopens ⊢
  cases hopens with
  | failed message message' memory hnone =>
    exact .failed _ _ rfl (List.append_cons ..).symm (hnone hh)
  | settled message memory handle regions vm hopened hhandle =>
    cases vm with
    | none => exact .attached _ _ handle rfl (List.append_cons ..).symm hhandle
    | some vm => exact .attached _ _ handle rfl (List.append_cons ..).symm hhandle
  | cut message memory handle regions trap hopened hhandle hknown hoverflows =>
    exact .cut trap _ rfl ⟨rfl, p, handle, regions, hp, hhandle, hknown, hopened, hoverflows⟩

/-- How an operation may end. -/
inductive Ends (tools : InjectorTools D W) (i : Injector D W) (op : InjectorOperation) :
    Except Trap Bool × Injector D W → Prop
  | answered {answer : Bool} {j : Injector D W} (events : List (InjectionState × String)) :
      Makes i j events → j.HoldsBy → (j.state = .attaching → i.state = .attaching) →
      Ends tools i op (.ok answer, j)
  | cut {trap : Trap} {j : Injector D W} (events : List (InjectionState × String)) :
      Makes i j events → op = .attach ∨ op = .round → Abandoned tools j →
      Ends tools i op (.error trap, j)

section

variable {op : InjectorOperation} {r : Bool × Injector D W} {r' : Except Trap Bool × Injector D W}

theorem Ends.unchanged {answer : Bool} (h : i.HoldsBy) : Ends tools i op (.ok answer, i) :=
  .answered [] (.nothing rfl rfl) h id

theorem Ends.moved {answer : Bool} {events : List (InjectionState × String)} (hm : Makes i j events)
    (h : j.HoldsBy) (hs : j.state ≠ .attaching) : Ends tools i op (.ok answer, j) :=
  .answered events hm h fun hattaching => absurd hattaching hs

theorem HoldsBy.apart (h : i.HoldsBy) (ha : ¬ i.state.isAttached = true) (hs : i.state ≠ .attaching) :
    i.memory.handle = none := by
  cases hh : i.memory.handle with
  | none => rfl
  | some handle => exact absurd (h.1 ⟨handle, hh⟩) (not_or.2 ⟨ha, hs⟩)

theorem HoldsBy.of_none (hh : i.memory.handle = none) (ha : i.state.isAttached = false)
    (hs : i.state ≠ .attaching) : i.HoldsBy := by
  rw [HoldsBy, hh, ha]
  constructor
  · rintro ⟨_, ⟨⟩⟩
  · rintro (⟨⟨⟩⟩ | hattaching)
    exact absurd hattaching hs

theorem HoldsBy.of_some {handle : D} (hh : i.memory.handle = some handle)
    (hs : i.state.isAttached = true ∨ i.state = .attaching) : i.HoldsBy :=
  ⟨fun _ => hs, fun _ => ⟨handle, hh⟩⟩

theorem Abandoned.holdsBy (h : Abandoned tools j) : j.HoldsBy := by
  obtain ⟨_, handle, _, _, hh, _⟩ := h.held
  exact .of_some hh (.inr h.attaching)

theorem ne_attaching_of_canScan (h : i.state.canScan = true) : i.state ≠ .attaching := by
  intro hs
  rw [hs] at h
  cases h

theorem HoldsBy.of_canScan (h : i.HoldsBy) (hc : i.state.canScan = true) : i.memory.handle = none :=
  h.apart (Standing.not_attached_of_canScan hc) (ne_attaching_of_canScan hc)

namespace Scans

theorem makes (h : Scans i r) : ∃ events, Makes i r.2 events := by
  cases h with
  | found message message' hc hs hu =>
    refine ⟨_, hu, ?_⟩
    rw [hs]
    exact .move (.of_canScan hc) (.move .find .stay)
  | missed message message' hc hs hu =>
    refine ⟨_, hu, ?_⟩
    rw [hs]
    exact .move (.of_canScan hc) (.move .miss .stay)
  | ignored => exact ⟨[], .nothing rfl rfl⟩

theorem holdsBy (h : Scans i r) (hi : i.HoldsBy) : r.2.HoldsBy := by
  cases h with
  | found message message' hc hs _ hh =>
    apply HoldsBy.of_none (hh.trans (hi.of_canScan hc))
    · rw [hs]; rfl
    · rw [hs]; decide
  | missed message message' hc hs _ hh =>
    apply HoldsBy.of_none (hh.trans (hi.of_canScan hc))
    · rw [hs]; rfl
    · rw [hs]; decide
  | ignored => exact hi

theorem ends (h : Scans i r) (hi : i.HoldsBy) : Ends tools i op (.ok r.1, r.2) := by
  obtain ⟨events, hm⟩ := h.makes
  refine .answered events hm (h.holdsBy hi) ?_
  intro hs
  cases h with
  | found _ _ _ hfound => cases hfound.symm.trans hs
  | missed _ _ _ hidle => cases hidle.symm.trans hs
  | ignored => exact hs

theorem answer (h : Scans i r) : r.1 = true ↔
    r.2.state = .found ∧ ∃ message, r.2.untold.getLast? = some (.found, message) := by
  cases h with
  | found message message' hc hs hu =>
    refine ⟨fun _ => ⟨hs, message', ?_⟩, fun _ => rfl⟩
    rw [hu]
    simp
  | missed message message' hc hs =>
    constructor
    · rintro ⟨⟩
    · rintro ⟨hfound, _⟩
      cases hs.symm.trans hfound
  | ignored hc =>
    constructor
    · rintro ⟨⟩
    · rintro ⟨hfound, _⟩
      exact absurd (by rw [hfound]; rfl) hc

end Scans

namespace Attempts

theorem ends (h : Attempts tools i' r') (hs : i'.state = .found) (hm : Makes i i' events)
    (hop : op = .attach ∨ op = .round) : Ends tools i op r' := by
  have hmakes {j : Injector D W} {state : InjectionState} (message message' : String)
      (hj : j.state = state) (hu : j.untold = i'.untold ++ [(.attaching, message), (state, message')])
      (hmove : Move .attaching state) :
      Makes i j (events ++ [(.attaching, message), (state, message')]) := by
    refine hm.trans ⟨hu, ?_⟩
    rw [hs, hj]
    exact .move .attach (.move hmove .stay)
  cases h with
  | attached message message' handle hj hu hh =>
    refine .answered _ (hmakes message message' hj hu .settle) (.of_some hh (.inl ?_)) ?_
    · rw [hj]; rfl
    · intro hattaching
      cases hj.symm.trans hattaching
  | failed message message' hj hu hh =>
    refine .answered _ (hmakes message message' hj hu .fail) (.of_none hh ?_ ?_) ?_
    · rw [hj]; rfl
    · rw [hj]; decide
    · intro hattaching
      cases hj.symm.trans hattaching
  | cut trap message hu habandoned =>
    refine .cut _ (hm.trans (.one hu habandoned.attaching ?_)) hop habandoned
    rw [hs]
    exact .attach

theorem answer {answer : Bool} (h : Attempts tools i r') (hr : r'.1 = .ok answer) :
    answer = true ↔ r'.2.state.isAttached = true := by
  cases h with
  | attached _ _ _ hj =>
    cases hr
    rw [hj]
    decide
  | failed _ _ hj =>
    cases hr
    rw [hj]
    decide
  | cut => cases hr

end Attempts

/-- How attaching goes: an attempt is made from where the target is found, at once or by a scan. -/
inductive Attaches (tools : InjectorTools D W) (i : Injector D W) :
    Except Trap Bool × Injector D W → Prop
  | already : i.state.isAttached = true → Attaches tools i (.ok true, i)
  | unmade {j : Injector D W} (events : List (InjectionState × String)) : Makes i j events →
      j.HoldsBy → (j.state = .attaching → i.state = .attaching) → ¬ j.state.isAttached = true →
      Attaches tools i (.ok false, j)
  | attempted {j : Injector D W} {r : Except Trap Bool × Injector D W}
      (events : List (InjectionState × String)) : Makes i j events → j.state = .found →
      Attempts tools j r → Attaches tools i r

theorem attaches (tools : InjectorTools D W) (hi : i.HoldsBy) :
    Attaches tools i (i.attach tools) := by
  have hattempts {j : Injector D W} {p : ProcessInfo} (hj : j.HoldsBy) (hs : j.state = .found)
      (hp : j.target = some p) : Attempts tools j (j.attachTo tools p.pid) := by
    apply attempts tools hp
    apply hj.apart
    all_goals rw [hs]; decide
  unfold attach
  split
  · next ha => exact .already ha
  · next ha =>
    by_cases hf : i.state = .found
    · rw [if_pos hf]
      dsimp only
      cases hp : i.target with
      | none => exact .unmade [] (.nothing rfl rfl) hi id ha
      | some p => exact .attempted [] (.nothing rfl rfl) hf (hattempts hi hf hp)
    · rw [if_neg hf]
      have hscans := scans tools i
      have hj := hscans.holdsBy hi
      obtain ⟨events, hm⟩ := hscans.makes
      generalize i.scan tools = scanned at hscans hj hm
      cases hscans with
      | @found j message message' hc hs hu hh =>
        dsimp only
        cases hp : j.target with
        | none =>
          refine .unmade events hm hj ?_ (by rw [hs]; decide)
          intro hattaching
          cases hs.symm.trans hattaching
        | some p => exact .attempted events hm hs (hattempts hj hs hp)
      | missed message message' hc hs =>
        dsimp only
        refine .unmade events hm hj ?_ (by rw [hs]; decide)
        intro hattaching
        cases hs.symm.trans hattaching
      | ignored => exact .unmade events hm hj id ha

namespace Attaches

theorem ends (h : Attaches tools i r') (hi : i.HoldsBy) (hop : op = .attach ∨ op = .round) :
    Ends tools i op r' := by
  cases h with
  | already => exact .unchanged hi
  | unmade events hm hj hs => exact .answered events hm hj hs
  | attempted events hm hs hattempts => exact hattempts.ends hs hm hop

theorem answer {answer : Bool} (h : Attaches tools i r') (hr : r'.1 = .ok answer) :
    answer = true ↔ r'.2.state.isAttached = true := by
  cases h with
  | already ha =>
    cases hr
    exact ⟨fun _ => ha, fun _ => rfl⟩
  | unmade _ _ _ _ ha =>
    cases hr
    exact ⟨nofun, fun hattached => absurd hattached ha⟩
  | attempted _ _ _ hattempts => exact hattempts.answer hr

end Attaches

theorem detach_ends (hi : i.HoldsBy) : Ends tools i op (.ok i.detach.1, i.detach.2) := by
  rw [detach]
  split
  · next ha =>
    have hs : InjectionState.detached ≠ .attaching := by decide
    exact .moved (.one rfl rfl (.detach (mem_of_isAttached ha))) (.of_none rfl rfl hs) hs
  · exact .unchanged hi

theorem detach_answer : i.detach.1 = i.state.isAttached := by
  rw [detach]
  split
  · next ha => exact ha.symm
  · next ha => exact (Bool.not_eq_true _ ▸ ha).symm

/-- A check is never cut short, as there is a handle where it asks for the regions. -/
theorem check_ends (hi : i.HoldsBy) : Ends tools i op (i.check tools) := by
  unfold check
  split
  · next ha =>
    obtain ⟨handle, hh⟩ := hi.2 (.inl ha)
    rw [run_eq_outcome, MemoryWork.outcome_regions_refresh hh]
    cases tools.driver.regions handle i.memory.world with
    | mk result world =>
      cases result with
      | ok regions => exact .answered [] (.nothing rfl rfl) (.of_some hh (.inl ha)) id
      | error fault =>
        have hs : InjectionState.idle ≠ .attaching := by decide
        dsimp only
        rw [loseHandle_of_isAttached]
        · refine .moved (.one rfl rfl (.lose (mem_of_isAttached ha))) (.of_none ?_ rfl hs) hs
          simp only [transition, Memory.invalidate, hh]
        · exact ha
  · exact .unchanged hi

theorem beginExecution_ends (hi : i.HoldsBy) :
    Ends tools i op (.ok i.beginExecution.1, i.beginExecution.2) := by
  rw [beginExecution]
  split
  · next hs =>
    obtain ⟨handle, hh⟩ := hi.2 (.inl (by rw [hs]; rfl))
    exact .moved (.one rfl rfl (hs ▸ .begin)) (.of_some hh (.inl rfl))
      (by decide : InjectionState.executing ≠ .attaching)
  · exact .unchanged hi

theorem endExecution_ends (hi : i.HoldsBy) :
    Ends tools i op (.ok i.endExecution.1, i.endExecution.2) := by
  rw [endExecution]
  split
  · next hs =>
    obtain ⟨handle, hh⟩ := hi.2 (.inl (by rw [hs]; rfl))
    exact .moved (.one rfl rfl (hs ▸ .finish)) (.of_some hh (.inl rfl))
      (by decide : InjectionState.injected ≠ .attaching)
  · exact .unchanged hi

theorem perform_ends (tools : InjectorTools D W) (hi : i.HoldsBy) (op : InjectorOperation) :
    Ends tools i op (i.perform tools op) := by
  cases op with
  | scan => exact (scans tools i).ends hi
  | attach => exact (attaches tools hi).ends hi (.inl rfl)
  | detach => exact detach_ends hi
  | check => exact check_ends hi
  | beginExecution => exact beginExecution_ends hi
  | endExecution => exact endExecution_ends hi
  | round =>
    rw [perform, round]
    split
    · exact check_ends hi
    · split
      · exact (attaches tools hi).ends hi (.inr rfl)
      · split
        · exact .unchanged hi
        · exact (scans tools i).ends hi

end

def changes (tools : InjectorTools D W) (i : Injector D W) (op : InjectorOperation) :
    List (InjectionState × String) :=
  (i.perform tools op).2.untold.drop i.untold.length

/-- An injector after any operations, with the changes that they made, what was told of them, and
whether some operation was cut short. In between, the background may be started or stopped, and anything
may happen to the world. -/
inductive History (tools : InjectorTools D W) :
    (made told : List (InjectionState × String)) → (cut : Bool) → Injector D W → Prop
  | created {locator : LocatorConfig} {config : InjectorConfig} {world : W} {i : Injector D W} :
      create locator config world = .ok i → History tools [] [] false i
  | ran {made told : List (InjectionState × String)} {cut : Bool} {i : Injector D W}
      (op : InjectorOperation) : History tools made told cut i →
      History tools (made ++ i.changes tools op) (told ++ (i.run tools op).2.1)
        (cut || !(i.run tools op).1.isOk) (i.run tools op).2.2
  | started {made told : List (InjectionState × String)} {cut : Bool} {i : Injector D W} :
      History tools made told cut i → History tools made told cut i.startBackground.2
  | stopped {made told : List (InjectionState × String)} {cut : Bool} {i : Injector D W} :
      History tools made told cut i → History tools made told cut i.stopBackground
  | meanwhile {made told : List (InjectionState × String)} {cut : Bool} {i : Injector D W} (world : W) :
      History tools made told cut i →
      History tools made told cut { i with memory := { i.memory with world } }

/-- The changes are a path to the state, and they were told in order up to those that are still to be
told. -/
structure Traced (made told : List (InjectionState × String)) (cut : Bool) (i : Injector D W) :
    Prop where
  kept : told ++ i.untold = made
  path : Path .idle (states made) i.state
  whole : cut = false → i.untold = []
  attaching : i.state = .attaching ↔ cut = true
  holdsBy : i.HoldsBy

namespace Traced

theorem run (h : Traced made told cut i) (op : InjectorOperation) :
    Traced (made ++ i.changes tools op) (told ++ (i.run tools op).2.1)
      (cut || !(i.run tools op).1.isOk) (i.run tools op).2.2 := by
  have hends := perform_ends tools h.holdsBy op
  have hmade {j : Injector D W} {events : List (InjectionState × String)} (hm : Makes i j events) :
      made ++ j.untold.drop i.untold.length = told ++ j.untold := by
    rw [hm.untold, List.drop_left, ← h.kept, List.append_assoc]
  have hpath {j : Injector D W} {events : List (InjectionState × String)} (hm : Makes i j events) :
      Path .idle (states (told ++ j.untold)) j.state := by
    rw [hm.untold, ← List.append_assoc, h.kept, states_append]
    exact h.path.append hm.path
  have hstays (hcut : cut = true) : (i.perform tools op).2.state = .attaching := by
    rw [perform_of_attaching tools (h.attaching.2 hcut) op]
    exact h.attaching.2 hcut
  rw [changes, Injector.run]
  generalize i.perform tools op = r at hends hstays
  cases hends with
  | answered events hm hj hs =>
    rw [hmade hm]
    refine ⟨List.append_nil _, hpath hm, fun _ => rfl, ?_, hj⟩
    constructor
    · intro hattaching
      rw [h.attaching.1 (hs hattaching), Bool.true_or]
    · intro hcut
      rcases Bool.or_eq_true_iff.1 hcut with hcut | hcut
      · exact hstays hcut
      · cases hcut
  | cut events hm hop habandoned =>
    rw [hmade hm]
    refine ⟨by rw [List.append_nil], hpath hm, ?_, ?_, habandoned.holdsBy⟩
    · intro huncut
      rw [Bool.or_eq_false_iff] at huncut
      cases huncut.2
    · exact iff_of_true habandoned.attaching (Bool.or_true _)

theorem congr (h : Traced made told cut i) (hu : j.untold = i.untold) (hs : j.state = i.state)
    (hh : j.memory.handle = i.memory.handle) : Traced made told cut j where
  kept := by rw [hu, h.kept]
  path := by
    rw [hs]
    exact h.path
  whole huncut := hu.trans (h.whole huncut)
  attaching := by
    rw [hs]
    exact h.attaching
  holdsBy := by
    rw [HoldsBy, hh, hs]
    exact h.holdsBy

end Traced

theorem History.traced (h : History tools made told cut i) : Traced made told cut i := by
  induction h with
  | created hc =>
    rw [create] at hc
    cases hp : BytePattern.ofText _ with
    | error fault =>
      rw [hp] at hc
      cases hc
    | ok signature =>
      rw [hp] at hc
      cases hc
      have hidle : ¬ InjectionState.idle = .attaching := by decide
      exact ⟨rfl, .stay, fun _ => rfl, iff_of_false hidle Bool.false_ne_true, .of_none rfl rfl hidle⟩
  | ran op _ ih => exact ih.run op
  | started _ ih => exact ih.congr rfl rfl rfl
  | stopped _ ih => exact ih.congr rfl rfl rfl
  | meanwhile _ _ ih => exact ih.congr rfl rfl rfl

/-- What the observer of an injector can rely on, whatever the processes, the opener and the driver
answer. -/
structure Reported (tools : InjectorTools D W) (made told : List (InjectionState × String))
    (cut : Bool) (i : Injector D W) : Prop where
  path : Path .idle (states made) i.state
  /-- A change was told once, or is still to be told. -/
  kept : told ++ i.untold = made
  whole : cut = false → i.untold = []
  answered : ∀ op answer now j, i.run tools op = (.ok answer, now, j) →
    told ++ now = made ++ i.changes tools op ∧ Path .idle (states (told ++ now)) j.state ∧
      (states (told ++ now)).getLast?.getD .idle = j.state
  scan : ∀ answer now j, i.run tools .scan = (.ok answer, now, j) →
    (answer = true ↔ j.state = .found ∧ ∃ message, now.getLast? = some (.found, message))
  attach : ∀ answer now j, i.run tools .attach = (.ok answer, now, j) →
    (answer = true ↔ j.state.isAttached = true)
  detach : ∀ answer now j, i.run tools .detach = (.ok answer, now, j) →
    (answer = true ↔ (∃ handle, i.memory.handle = some handle) ∧ i.state ≠ .attaching)
  attaching : i.state = .attaching ↔ cut = true
  /-- Only attaching may be cut short, and then nothing is told of it yet. -/
  stopped : ∀ op trap now j, i.run tools op = (.error trap, now, j) →
    now = [] ∧ (op = .attach ∨ op = .round) ∧ Abandoned tools j

theorem run_ok {op : InjectorOperation} {answer : Bool} {now : List (InjectionState × String)}
    (h : i.run tools op = (.ok answer, now, j)) : ∃ j', i.perform tools op = (.ok answer, j') ∧
      now = j'.untold ∧ j = { j' with untold := [] } := by
  rw [run] at h
  generalize i.perform tools op = r at h
  obtain ⟨result, j'⟩ := r
  cases result with
  | error trap => cases h
  | ok answer' =>
    cases h
    exact ⟨j', rfl, rfl, rfl⟩

theorem run_certain {op : InjectorOperation} {answer : Bool}
    {now : List (InjectionState × String)} {r : Bool × Injector D W}
    (hop : i.perform tools op = perform.certain r) (h : i.run tools op = (.ok answer, now, j)) :
    answer = r.1 ∧ now = r.2.untold ∧ j = { r.2 with untold := [] } := by
  obtain ⟨j', hperform, rfl, rfl⟩ := run_ok h
  rw [hop, perform.certain] at hperform
  obtain ⟨hanswer, rfl⟩ := Prod.mk.inj hperform
  cases hanswer
  exact ⟨rfl, rfl, rfl⟩

theorem reported_of_history (h : History tools made told cut i) : Reported tools made told cut i := by
  have htraced := h.traced
  constructor
  · exact htraced.path
  · exact htraced.kept
  · exact htraced.whole
  · intro op answer now j hrun
    have hnext : Traced (made ++ i.changes tools op) _ _ _ := htraced.run op
    have huntold : j.untold = [] := by
      obtain ⟨j', _, _, rfl⟩ := run_ok hrun
      rfl
    rw [hrun] at hnext
    have hkept : told ++ now = made ++ i.changes tools op := by
      rw [← hnext.kept, huntold, List.append_nil]
    have hpath := hnext.path
    rw [← hkept] at hpath
    exact ⟨hkept, hpath, hpath.last⟩
  · intro answer now j hrun
    obtain ⟨rfl, rfl, rfl⟩ := run_certain rfl hrun
    exact (scans tools i).answer
  · intro answer now j hrun
    obtain ⟨j', hperform, rfl, rfl⟩ := run_ok hrun
    rw [perform] at hperform
    have hattaches := attaches tools htraced.holdsBy
    rw [hperform] at hattaches
    exact hattaches.answer rfl
  · intro answer now j hrun
    obtain ⟨rfl, rfl, rfl⟩ := run_certain rfl hrun
    have hheld : (∃ handle, i.memory.handle = some handle) ↔ _ := htraced.holdsBy
    rw [detach_answer, hheld]
    constructor
    · intro ha
      refine ⟨.inl ha, ?_⟩
      intro hs
      rw [hs] at ha
      cases ha
    · rintro ⟨ha | hs, hne⟩
      · exact ha
      · exact absurd hs hne
  · exact htraced.attaching
  · intro op trap now j hrun
    have hends := perform_ends tools htraced.holdsBy op
    rw [Injector.run] at hrun
    generalize i.perform tools op = r at hends hrun
    cases hends with
    | answered => cases hrun
    | cut events hm hop habandoned =>
      cases hrun
      exact ⟨rfl, hop, habandoned⟩

/-- The same process, whose driver answers a region that ends before it starts. -/
def reversed : InjectorTools Nat Unit := oneProcessWith [.anonymous .readExecute 0x2000 0x1000]

theorem reported_of_history_oneProcess :
    (∃ made told cut i, History oneProcess made told cut i ∧ cut = false ∧
      states told = [.scanning, .found, .attaching, .injected, .executing, .injected, .detached] ∧
      Reported oneProcess made told cut i) ∧
    ∃ made told i, History reversed made told true i ∧
      states made = [.scanning, .found, .attaching] ∧ told = [] ∧
      i.memory.handle = some 4 ∧ (i.run reversed .detach).1 = .ok false ∧
      Reported reversed made told true i := by
  have hcreated : create nameKnown.locator nameKnown.config () = .ok nameKnown := by cbv
  constructor
  · have hfresh : History oneProcess [] [] false nameKnown := .created hcreated
    have hexecuted := ((hfresh.ran .attach).ran .beginExecution).ran .endExecution
    have hhistory := hexecuted.ran .detach
    exact ⟨_, _, _, _, hhistory, by cbv, by cbv, reported_of_history hhistory⟩
  · have hfresh : History reversed [] [] false nameKnown := .created hcreated
    have hhistory := hfresh.ran .attach
    have hcut : (false || !(nameKnown.run reversed .attach).1.isOk) = true := by cbv
    have htold : [] ++ (nameKnown.run reversed .attach).2.1 = [] := by cbv
    rw [hcut, htold] at hhistory
    exact ⟨_, [], _, hhistory, by cbv, rfl, by cbv, by cbv, reported_of_history hhistory⟩

end Injector

end Grapnel
