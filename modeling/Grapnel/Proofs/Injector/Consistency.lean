import Grapnel.Proofs.Injector.Location

namespace Grapnel

variable {D W : Type}

/-- Memory is opened for the process that was asked for, and no region ends before its start. -/
structure InjectorTools.Faithful (tools : InjectorTools D W) : Prop where
  opens : ∀ pid w handle w', tools.openMemory pid w = (.ok handle, w') →
    tools.driver.processId handle = pid
  ordered : ∀ handle w regions w', tools.driver.regions handle w = (.ok regions, w') →
    ∀ r ∈ regions, r.start ≤ r.stop

namespace Injector

variable {tools : InjectorTools D W} {i i' : Injector D W}

/-- What is known while a handle is held. -/
structure Holds (tools : InjectorTools D W) (i : Injector D W) (handle : D) : Prop where
  /-- The regions that are known were enumerated through this handle. -/
  enumerated : ∃ regions w w', i.memory.known = some regions ∧
    tools.driver.regions handle w = (.ok regions, w')
  ofTarget : ∃ p, i.target = some p ∧ tools.driver.processId handle = p.pid
  reach : i.mode = .full ∧ (∃ vm, i.vm = some vm) ∧ i.lastFailure = none ∨
    i.mode = .localOnly ∧ i.vm = none ∧ i.lastFailure = some .vmNotLocated

/-- An injector holds a handle, or it does not. -/
inductive Standing (tools : InjectorTools D W) (i : Injector D W) : Prop where
  | held (handle : D) : i.memory.handle = some handle →
      i.state = .injected ∨ i.state = .executing → Holds tools i handle → Standing tools i
  | apart : i.memory.handle = none → i.mode = .localOnly → i.vm = none →
      i.state = .idle ∨ i.state = .detached ∨
        i.state = .found ∧ (∃ p, i.target = some p) ∧ i.lastFailure = none ∨
        i.state = .failed ∧ i.lastFailure = some .inaccessible → Standing tools i

/-- An injector that an attempt to attach left in a state of its own when it was cut short. Its handle
is one of the target, and what was to be scanned in the regions of this handle is too large. -/
structure Stuck (tools : InjectorTools D W) (i : Injector D W) : Prop where
  abandoned : Abandoned tools i
  ofTarget : ∃ p handle, i.target = some p ∧ i.memory.handle = some handle ∧
    tools.driver.processId handle = p.pid
  oversized : ∃ regions, i.memory.known = some regions ∧
    Oversized i.signature i.config.maxRegionSize regions
  mode : i.mode = .localOnly
  vm : i.vm = none

/-- An operation answers, or it is cut short while it attaches. -/
inductive Settles (tools : InjectorTools D W) (op : InjectorOperation) :
    Except Trap Bool × Injector D W → Prop where
  | answered (answer : Bool) {i : Injector D W} : Standing tools i →
      Settles tools op (.ok answer, i)
  | cut (trap : Trap) {i : Injector D W} : op = .attach ∨ op = .round → Stuck tools i →
      Settles tools op (.error trap, i)

theorem isAttached_iff {s : InjectionState} :
    s.isAttached = true ↔ s = .injected ∨ s = .executing := by
  cases s <;> simp [InjectionState.isAttached]

theorem loseHandle_of_isAttached (ha : i.state.isAttached = true) :
    i.loseHandle =
      { i with
        memory := i.memory.invalidate, vm := none, mode := .localOnly,
        target := none }.transition .idle "process handle lost" := by
  apply if_neg
  intro hidle
  rw [hidle] at ha
  cases ha

namespace Standing

variable {op : InjectorOperation}

theorem isAttached (h : Standing tools i) :
    i.state.isAttached = true ↔ ∃ handle, i.memory.handle = some handle := by
  rw [isAttached_iff]
  cases h with
  | held handle hh hs _ => exact ⟨fun _ => ⟨handle, hh⟩, fun _ => hs⟩
  | apart hh _ _ hs =>
    constructor
    · intro ha
      rcases ha with ha | ha <;> simp [ha] at hs
    · rintro ⟨handle, ha⟩
      rw [hh] at ha
      cases ha

theorem of_attached (h : Standing tools i) (ha : i.state.isAttached = true) :
    ∃ handle, i.memory.handle = some handle ∧ Holds tools i handle := by
  cases h with
  | held handle hh _ hold => exact ⟨handle, hh, hold⟩
  | apart hh hm hv hs =>
    have hstanding : Standing tools i := .apart hh hm hv hs
    obtain ⟨handle, hsome⟩ := hstanding.isAttached.1 ha
    rw [hh] at hsome
    cases hsome

theorem of_apart (h : Standing tools i) (ha : ¬ i.state.isAttached = true) :
    i.memory.handle = none ∧ i.mode = .localOnly ∧ i.vm = none := by
  cases h with
  | held _ _ hs _ => exact absurd (isAttached_iff.2 hs) ha
  | apart hh hm hv _ => exact ⟨hh, hm, hv⟩

theorem not_attached_of_canScan (hc : i.state.canScan = true) : ¬ i.state.isAttached = true := by
  revert hc
  cases i.state <;> simp [InjectionState.canScan, InjectionState.isAttached]

/-- A scan leaves the injector apart, and one that finds a target leaves it found. -/
theorem scan (h : Standing tools i) :
    Standing tools (i.scan tools).2 ∧ ((i.scan tools).1 = true → (i.scan tools).2.state = .found) := by
  unfold Injector.scan
  split
  · next hc =>
    obtain ⟨hh, hm, hv⟩ := h.of_apart (not_attached_of_canScan hc)
    dsimp only
    split
    · exact ⟨.apart hh hm hv (.inr (.inr (.inl ⟨rfl, ⟨_, rfl⟩, rfl⟩))), fun _ => rfl⟩
    · exact ⟨.apart hh hm hv (.inl rfl), nofun⟩
    · exact ⟨.apart hh hm hv (.inl rfl), nofun⟩
  · exact ⟨h, nofun⟩

theorem settle {p : ProcessInfo} {handle : D} {vm : Option VmLocation}
    (hh : i.memory.handle = some handle) (ht : i.target = some p)
    (hp : tools.driver.processId handle = p.pid)
    (hk : ∃ regions w w', i.memory.known = some regions ∧
      tools.driver.regions handle w = (.ok regions, w')) :
    Standing tools (i.settle p.pid vm) := by
  cases vm with
  | some vm => exact .held handle hh (.inl rfl) ⟨hk, ⟨p, ht, hp⟩, .inl ⟨rfl, ⟨vm, rfl⟩, rfl⟩⟩
  | none => exact .held handle hh (.inl rfl) ⟨hk, ⟨p, ht, hp⟩, .inr ⟨rfl, rfl, rfl⟩⟩

/-- Opening the memory of the target ends with a handle whose regions are known, or with none, unless
it is cut short. -/
theorem attachTo (ht : tools.Faithful) (h : Standing tools i) (ha : ¬ i.state.isAttached = true)
    {p : ProcessInfo} (hp : i.target = some p) (hop : op = .attach ∨ op = .round) :
    Settles tools op (i.attachTo tools p.pid) := by
  obtain ⟨hh, hm, hv⟩ := h.of_apart ha
  have hopens := opens tools i p.pid
  generalize i.attachTo tools p.pid = r at hopens ⊢
  cases hopens with
  | failed message message' memory hnone =>
    exact .answered false (.apart (hnone hh) hm hv (.inr (.inr (.inr ⟨rfl, rfl⟩))))
  | settled message memory handle regions vm hopened hhandle hknown =>
    obtain ⟨_, _, ho⟩ := hopened.opens
    obtain ⟨_, _, hr⟩ := hopened.enumerated
    exact .answered true (settle hhandle hp (ht.opens _ _ _ _ ho) ⟨regions, _, _, hknown, hr⟩)
  | cut message memory handle regions trap hopened hhandle hknown hoverflows =>
    obtain ⟨_, _, ho⟩ := hopened.opens
    obtain ⟨_, _, hr⟩ := hopened.enumerated
    have hpid := ht.opens _ _ _ _ ho
    have hoversized : Oversized i.signature i.config.maxRegionSize regions := by
      refine hoverflows.resolve_left ?_
      rintro ⟨r, hmem, _, hle⟩
      exact hle (ht.ordered _ _ _ _ hr r hmem)
    exact .cut trap hop ⟨⟨rfl, p, handle, regions, hp, hhandle, hknown, hopened, hoverflows⟩,
      ⟨p, handle, hp, hhandle, hpid⟩, ⟨regions, hknown, hoversized⟩, hm, hv⟩

theorem attach (ht : tools.Faithful) (h : Standing tools i) (hop : op = .attach ∨ op = .round) :
    Settles tools op (i.attach tools) := by
  unfold Injector.attach
  split
  · exact .answered true h
  · next ha =>
    by_cases hf : i.state = .found
    · rw [if_pos hf]
      dsimp only
      cases hp : i.target with
      | none => exact .answered false h
      | some p => exact h.attachTo ht ha hp hop
    · rw [if_neg hf]
      obtain ⟨hs, hfound⟩ := h.scan
      cases hscan : i.scan tools with
      | mk isFound j =>
        rw [hscan] at hs hfound
        dsimp only at hs hfound ⊢
        cases isFound with
        | false => cases j.target <;> exact .answered false hs
        | true =>
          cases hp : j.target with
          | none => exact .answered false hs
          | some p =>
            apply hs.attachTo ht _ hp hop
            rw [hfound rfl]
            exact Bool.false_ne_true

theorem detach (h : Standing tools i) : Standing tools i.detach.2 := by
  unfold Injector.detach
  split
  · exact .apart rfl rfl rfl (.inr (.inl rfl))
  · exact h

theorem loseHandle {handle : D} (hh : i.memory.handle = some handle)
    (ha : i.state.isAttached = true) : Standing tools i.loseHandle := by
  rw [loseHandle_of_isAttached ha]
  refine .apart ?_ rfl rfl (.inl rfl)
  simp only [transition, Memory.invalidate, hh]

theorem check (h : Standing tools i) : Settles tools op (i.check tools) := by
  unfold Injector.check
  split
  · next ha =>
    obtain ⟨handle, hh, hold⟩ := h.of_attached ha
    rw [run_eq_outcome, MemoryWork.outcome_regions_refresh hh]
    cases hr : tools.driver.regions handle i.memory.world with
    | mk result world =>
      cases result with
      | ok regions =>
        exact .answered true (.held handle hh (isAttached_iff.1 ha)
          ⟨⟨regions, _, _, rfl, hr⟩, hold.ofTarget, hold.reach⟩)
      | error fault => exact .answered false (loseHandle hh ha)
  · exact .answered false h

theorem moves {s : InjectionState} {message : String} (h : Standing tools i)
    (ha : i.state.isAttached = true) (hs : s.isAttached = true) :
    Standing tools (i.transition s message) := by
  obtain ⟨handle, hh, hold⟩ := h.of_attached ha
  exact .held handle hh (isAttached_iff.1 hs) ⟨hold.enumerated, hold.ofTarget, hold.reach⟩

theorem beginExecution (h : Standing tools i) : Standing tools i.beginExecution.2 := by
  unfold Injector.beginExecution
  split
  · next hs => exact h.moves (isAttached_iff.2 (.inl hs)) rfl
  · exact h

theorem endExecution (h : Standing tools i) : Standing tools i.endExecution.2 := by
  unfold Injector.endExecution
  split
  · next hs => exact h.moves (isAttached_iff.2 (.inr hs)) rfl
  · exact h

theorem round (ht : tools.Faithful) (h : Standing tools i) :
    Settles tools .round (i.round tools) := by
  unfold Injector.round
  split
  · exact h.check
  · split
    · exact h.attach ht (.inr rfl)
    · split
      · exact .answered false h
      · exact .answered _ h.scan.1

theorem perform (ht : tools.Faithful) (h : Standing tools i) (op : InjectorOperation) :
    Settles tools op (i.perform tools op) := by
  cases op with
  | scan => exact .answered _ h.scan.1
  | attach => exact h.attach ht (.inl rfl)
  | detach => exact .answered _ h.detach
  | check => exact h.check
  | beginExecution => exact .answered _ h.beginExecution
  | endExecution => exact .answered _ h.endExecution
  | round => exact h.round ht

end Standing

/-- An injector after any number of operations, whether they answered or were cut short. In between, the
background may be started or stopped, and anything may happen to the world. -/
inductive Reaches (tools : InjectorTools D W) : Injector D W → Prop where
  | created {locator : LocatorConfig} {config : InjectorConfig} {world : W} {i : Injector D W} :
      create locator config world = .ok i → Reaches tools i
  | ran {i : Injector D W} (op : InjectorOperation) :
      Reaches tools i → Reaches tools (i.run tools op).2.2
  | started {i : Injector D W} : Reaches tools i → Reaches tools i.startBackground.2
  | stopped {i : Injector D W} : Reaches tools i → Reaches tools i.stopBackground
  | meanwhile {i : Injector D W} (world : W) :
      Reaches tools i → Reaches tools { i with memory := { i.memory with world } }

/-- What is told of an injector fits together. -/
structure Consistent (tools : InjectorTools D W) (i : Injector D W) : Prop where
  /-- Nothing is left half done. -/
  rests : i.state ∈ [.idle, .found, .injected, .executing, .detached, .failed]
  attached_iff : i.state = .injected ∨ i.state = .executing ↔ ∃ handle, i.memory.handle = some handle
  holds : ∀ handle, i.memory.handle = some handle → Holds tools i handle
  apart : i.memory.handle = none → i.mode = .localOnly ∧ i.vm = none
  found : i.state = .found → (∃ p, i.target = some p) ∧ i.lastFailure = none
  failed : i.state = .failed → i.lastFailure = some .inaccessible

namespace Standing

theorem consistent (h : Standing tools i) : Consistent tools i := by
  have hattached : i.state = .injected ∨ i.state = .executing ↔
      ∃ handle, i.memory.handle = some handle := by
    rw [← isAttached_iff]
    exact h.isAttached
  cases h with
  | held handle hh hs hold =>
    refine ⟨?_, hattached, ?_, ?_, ?_, ?_⟩
    · rcases hs with hs | hs <;> rw [hs] <;> decide
    · intro handle' hh'
      rw [hh] at hh'
      cases hh'
      exact hold
    · intro hnone
      rw [hh] at hnone
      cases hnone
    · intro hf
      rcases hs with hs | hs <;> cases hs.symm.trans hf
    · intro hf
      rcases hs with hs | hs <;> cases hs.symm.trans hf
  | apart hh hm hv hs =>
    refine ⟨?_, hattached, ?_, fun _ => ⟨hm, hv⟩, ?_, ?_⟩
    · rcases hs with hs | hs | ⟨hs, _⟩ | ⟨hs, _⟩ <;> rw [hs] <;> decide
    · intro handle hsome
      rw [hh] at hsome
      cases hsome
    · intro hf
      rcases hs with hs | hs | ⟨_, hs⟩ | ⟨hs, _⟩
      · cases hs.symm.trans hf
      · cases hs.symm.trans hf
      · exact hs
      · cases hs.symm.trans hf
    · intro hf
      rcases hs with hs | hs | ⟨hs, _⟩ | ⟨_, hs⟩
      · cases hs.symm.trans hf
      · cases hs.symm.trans hf
      · cases hs.symm.trans hf
      · exact hs

theorem congr (h : Standing tools i) (hhandle : i'.memory.handle = i.memory.handle)
    (hknown : i'.memory.known = i.memory.known) (hs : i'.state = i.state) (hm : i'.mode = i.mode)
    (ht : i'.target = i.target) (hv : i'.vm = i.vm) (hl : i'.lastFailure = i.lastFailure) :
    Standing tools i' := by
  cases h with
  | held handle hh hstate hold =>
    refine .held handle (hhandle.trans hh) (hs ▸ hstate) ⟨?_, ?_, ?_⟩
    · rw [hknown]
      exact hold.enumerated
    · rw [ht]
      exact hold.ofTarget
    · rw [hm, hv, hl]
      exact hold.reach
  | apart hh hmode hvm hstate =>
    refine .apart (hhandle.trans hh) (hm.trans hmode) (hv.trans hvm) ?_
    rw [hs, ht, hl]
    exact hstate

end Standing

theorem Stuck.congr (h : Stuck tools i) (hmemory : ∃ w, i'.memory = { i.memory with world := w })
    (hs : i'.state = i.state) (hm : i'.mode = i.mode) (ht : i'.target = i.target) (hv : i'.vm = i.vm)
    (hsignature : i'.signature = i.signature) (hconfig : i'.config = i.config) : Stuck tools i' := by
  obtain ⟨⟨hattaching, hheld⟩, hofTarget, hoversized, hmode, hvm⟩ := h
  obtain ⟨w, hw⟩ := hmemory
  refine ⟨⟨hs.trans hattaching, ?_⟩, ?_, ?_, hm.trans hmode, hv.trans hvm⟩
  · rw [ht, hw, hsignature, hconfig]
    exact hheld
  · rw [ht, hw]
    exact hofTarget
  · rw [hw, hsignature, hconfig]
    exact hoversized

theorem Standing.ne_attaching (h : Standing tools i) : i.state ≠ .attaching := by
  intro hs
  have hrests := h.consistent.rests
  rw [hs] at hrests
  revert hrests
  decide

theorem Reaches.standing (ht : tools.Faithful) (hr : Reaches tools i) :
    Standing tools i ∨ Stuck tools i := by
  induction hr with
  | created hc =>
    rw [create] at hc
    cases hp : BytePattern.ofText _ with
    | error fault =>
      rw [hp] at hc
      cases hc
    | ok signature =>
      rw [hp] at hc
      cases hc
      exact .inl (.apart rfl rfl rfl (.inl rfl))
  | @ran i op _ ih =>
    rcases ih with ih | ih
    · have hsettles := ih.perform ht op
      rw [run]
      generalize i.perform tools op = outcome at hsettles
      cases hsettles with
      | answered _ hs => exact .inl (hs.congr rfl rfl rfl rfl rfl rfl rfl)
      | cut _ _ hs => exact .inr hs
    · rw [run_of_attaching tools ih.abandoned.attaching op]
      exact .inr (ih.congr ⟨_, rfl⟩ rfl rfl rfl rfl rfl rfl)
  | started _ ih | stopped _ ih | meanwhile _ _ ih =>
    rcases ih with ih | ih
    · exact .inl (ih.congr rfl rfl rfl rfl rfl rfl rfl)
    · exact .inr (ih.congr ⟨_, rfl⟩ rfl rfl rfl rfl rfl rfl)

/-- After any operations the injector is consistent, unless one of them was cut short; then it is stuck
for good. The next operation answers, or it attaches and is cut short itself. -/
theorem consistent_of_reaches (ht : tools.Faithful) (hr : Reaches tools i) :
    (i.state ≠ .attaching → Consistent tools i) ∧
    (i.state = .attaching → Stuck tools i ∧
      ∀ op, i.run tools op = (.ok false, i.untold, { i with untold := [] })) ∧
    ∀ op, (∃ answer told i', i.run tools op = (.ok answer, told, i')) ∨
      (op = .attach ∨ op = .round) ∧
        ∃ trap i', i.run tools op = (.error trap, [], i') ∧ Stuck tools i' := by
  rcases hr.standing ht with hs | hs
  · refine ⟨fun _ => hs.consistent, fun hattaching => absurd hattaching hs.ne_attaching, ?_⟩
    intro op
    have hsettles := hs.perform ht op
    rw [run]
    generalize i.perform tools op = outcome at hsettles
    cases hsettles with
    | answered => exact .inl ⟨_, _, _, rfl⟩
    | cut _ hop hstuck => exact .inr ⟨hop, _, _, rfl, hstuck⟩
  · have hattaching := hs.abandoned.attaching
    have hrun := run_of_attaching tools hattaching
    exact ⟨fun hne => absurd hattaching hne, fun _ => ⟨hs, hrun⟩, fun op => .inl ⟨_, _, _, hrun op⟩⟩

/-- One process with some regions, whose memory starts with the signature wherever it is read. -/
def oneProcessWith (regions : List Region) : InjectorTools Nat Unit where
  source := {
    processes := fun w => (.ok [⟨4, "game", [], none, none, .none⟩], w)
    regions := fun _ w => (.ok [], w) }
  openMemory pid w := (.ok pid, w)
  driver := {
    processId := id
    isWritable := fun _ _ => true
    read := fun _ _ size w => (.ok ((0x1B :: 0x4C :: 0x75 :: List.replicate size 0).take size), w)
    write := fun _ _ _ w => (.ok (), w)
    readVectored := fun _ _ w => (.error .notAttached, w)
    writeVectored := fun _ _ w => (.error .notAttached, w)
    regions := fun _ w => (.ok regions, w)
    length_read := by
      intro _ _ size _ _ h
      cases h
      simp only [List.length_take, List.length_cons, List.length_replicate]
      omega
    lengths_readVectored := nofun }

theorem faithful_oneProcessWith {regions : List Region} (h : ∀ r ∈ regions, r.start ≤ r.stop) :
    (oneProcessWith regions).Faithful where
  opens _ _ _ _ ho := by
    cases ho
    rfl
  ordered _ _ _ _ hr := by
    cases hr
    exact h

/-- One region of code. -/
def oneProcess : InjectorTools Nat Unit := oneProcessWith [.anonymous .readExecute 0x1000 0x1005]

/-- Two regions of code that overlap: the first one is shorter than the signature, and the second one
reaches to the end of the address space. -/
def overlapping : InjectorTools Nat Unit :=
  oneProcessWith [.anonymous .readExecute 0 2, .anonymous .readExecute 1 (2 ^ 64 - 1)]

/-- An injector that knows the name of that process. -/
def nameKnown : Injector Nat Unit where
  locator := { LocatorConfig.standard with names := ["game"] }
  config := .standard
  signature := ⟨[some 0x1B, some 0x4C, some 0x75], by decide⟩
  memory := .create ()
  state := .idle
  mode := .localOnly
  target := none
  vm := none
  lastFailure := none
  untold := []
  inBackground := false

/-- The same injector, which scans regions of any size. -/
def sizeIgnored : Injector Nat Unit :=
  { nameKnown with config := { InjectorConfig.standard with maxRegionSize := wordLimit - 1 } }

theorem consistent_of_reaches_oneProcess :
    (∃ i, Reaches oneProcess i ∧ i.state = .injected ∧ i.mode = .full ∧ Consistent oneProcess i) ∧
    ∃ i, Reaches overlapping i ∧ i.state = .attaching ∧ i.memory.handle = some 4 ∧
      Stuck overlapping i := by
  constructor
  · have hcreated : create nameKnown.locator nameKnown.config () = .ok nameKnown := by cbv
    have hreaches : Reaches oneProcess (nameKnown.run oneProcess .attach).2.2 :=
      .ran .attach (.created hcreated)
    have hstate : (nameKnown.run oneProcess .attach).2.2.state = .injected := by cbv
    have hfaithful : oneProcess.Faithful := faithful_oneProcessWith (by decide)
    obtain ⟨hconsistent, _⟩ := consistent_of_reaches hfaithful hreaches
    refine ⟨_, hreaches, hstate, by cbv, hconsistent ?_⟩
    rw [hstate]
    decide
  · have hcreated : create sizeIgnored.locator sizeIgnored.config () = .ok sizeIgnored := by cbv
    have hreaches : Reaches overlapping (sizeIgnored.run overlapping .attach).2.2 :=
      .ran .attach (.created hcreated)
    have hstate : (sizeIgnored.run overlapping .attach).2.2.state = .attaching := by cbv
    have hfaithful : overlapping.Faithful := faithful_oneProcessWith (by decide)
    obtain ⟨_, hstuck, _⟩ := consistent_of_reaches hfaithful hreaches
    exact ⟨_, hreaches, hstate, by cbv, (hstuck hstate).1⟩

end Injector

end Grapnel
