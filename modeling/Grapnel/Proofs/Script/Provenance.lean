import Grapnel.Proofs.Script.Hardening

namespace Grapnel

open Guest SourceTag HardenedLoad

/-- No name that a script has for a chunk changes how the engine classifies the chunk. A tag is read
back whatever name follows it, from the text and from every function of a chunk compiled under it; and
the `load` that an engine starts with, whatever surrounds it, refuses the reserved names, so that what
it makes shows no tag, does not count as the engine's unless it was put on record, and does not make
its caller the host. -/
theorem tags_unforgeable :
    (∀ (tag : SourceTag) (name : String),
      classify? (tag.namedChunk name) = some tag ∧ classify? tag.chunkName = some tag) ∧
    (∀ (tag : SourceTag) (name : String) (source : Text) (run : Machine → Machine) (m m' : Machine)
      (f : FunctionRef),
      (ChunkLibrary.chunkFunction (tag.namedChunk name) source).run.run run m = (.ok (.ok f), m') →
      m'.heap.Tagged (some tag) f) ∧
    (∀ (c : NativeCall) (run : Machine → Machine) (m m' : Machine) (results : List Value),
      (HostAction.perform (ChunkLibrary.loadText c)).run run m = (.ok results, m') →
      (∃ f, results = [.function f, .nil] ∧ m'.heap.Tagged (some .load) f) ∨
        ∃ error, results = [.nil, error]) ∧
    (∀ name : Text, ¬ Reserved name → classify? (HostAction.hostText name) = none) ∧
    (∀ (host : Host) (workspace : Workspace), ∃ m f,
      (Machine.bare host workspace).perform Machine.harden.run = (.ok (.ok ()), m) ∧
        (host.config.environmentBootstrap = none → Engine.start host workspace = (.ok (), m)) ∧
        (m.heap.table m.globals).getString "load" = .function f ∧ IsHardened m.heap f) ∧
    (∀ (run : Machine → Machine) (m₀ m : Machine) (f : FunctionRef) (args : List Value)
      (origin : Option Origin) (fuel : Nat), IsHardened m₀.heap f →
      (Step.callFunction f args origin).run run m₀ = (.ok (), m) → 20 ≤ fuel →
      ∃ left m', Machine.run fuel m = Machine.run left m' ∧ Ends args m₀.frames m') ∧
    (∀ (h : Heap) (f : FunctionRef), h.Tagged none f →
      ∀ r : ClosureRegistry, r.isOurs h f = r.isRecorded f) ∧
    (∀ (m : Machine) (a : Activation) (depth used : Nat) (frames : List Frame),
      m.heap.Tagged none a.function →
      ClosureLibrary.callerIsHost m (⟨.guest a, depth, used⟩ :: frames) =
        (!(ClosureRegistry.sourceOf m.heap a.function).startsWith "@" &&
          ClosureLibrary.callerIsHost m frames)) := by
  refine ⟨fun tag name => ⟨classify?_namedChunk tag name, classify?_chunkName tag⟩,
    fun tag name source run m m' f h => ChunkLibrary.tagged_of_chunkFunction h,
    fun c run m m' results h => ChunkLibrary.tagged_of_loadText h,
    fun name h => classify?_hostText_eq_none h, Machine.exists_hardened, ?load,
    fun h f htagged r => by rw [isOurs_tagged r htagged, Option.any_none, Bool.or_false],
    fun m a depth used frames htagged => callerIsHost_untagged htagged⟩
  case load =>
    rintro run m₀ m f args origin fuel ⟨k, hf, hk⟩ hcall hfuel
    exact (endsFrom_start (n := 0) m (At.of_call hf hk hcall)).exists_run hfuel

/-- A machine with the three natives, the function in the place of the last one, and a function of a
chunk without a name. -/
def hardened : Machine :=
  { (default : Machine) with
    heap := { Heap.empty with
      functions := #[.builtin (.base .type), .builtin (.string .sub), .builtin (.base .load),
        .guest Prelude.hardenedLoad #[⟨0⟩, ⟨1⟩, ⟨2⟩], .guest default #[]]
      cells := #[.function ⟨0⟩, .function ⟨1⟩, .function ⟨2⟩] } }

theorem isHardened_hardened : IsHardened hardened.heap ⟨3⟩ :=
  ⟨⟨#[⟨0⟩, ⟨1⟩, ⟨2⟩], ⟨0⟩, ⟨1⟩, ⟨2⟩⟩, rfl, rfl, rfl, rfl, rfl, rfl, rfl⟩

theorem tagged_hardened : hardened.heap.Tagged none ⟨4⟩ := by
  refine ⟨default, #[], rfl, fun q hq => ?_⟩
  cases hq with
  | self => decide +kernel
  | nested hmem => cases Array.not_mem_empty _ hmem

/-- A name that begins with a bracket and another tag. -/
def imitation : String := "]=[tether:sandbox]"

theorem tags_unforgeable_imitation :
    classify? (SourceTag.load.namedChunk imitation) = some .load ∧
    (∃ f m', (ChunkLibrary.chunkFunction (SourceTag.load.namedChunk imitation)
        (text "return 1")).run.run id hardened = (.ok (.ok f), m') ∧ m'.heap.Tagged (some .load) f) ∧
    (∃ results m', (HostAction.perform (ChunkLibrary.loadText
        ⟨[.ofString "return 1", .ofString imitation], ⟨0⟩, none⟩)).run id hardened =
          (.ok results, m') ∧
      ((∃ f, results = [.function f, .nil] ∧ m'.heap.Tagged (some .load) f) ∨
        ∃ error, results = [.nil, error])) ∧
    classify? (HostAction.hostText (text imitation)) = none ∧
    (∃ m f, Engine.start default default = (.ok (), m) ∧
      (m.heap.table m.globals).getString "load" = .function f ∧ IsHardened m.heap f) ∧
    (∃ m left m', (Step.callFunction ⟨3⟩ [.ofString "return 1", .ofString "=[tether:sandbox]"]
        none).run id hardened = (.ok (), m) ∧ Machine.run 20 m = Machine.run left m' ∧
      Ends [.ofString "return 1", .ofString "=[tether:sandbox]"] [] m') ∧
    ClosureRegistry.empty.isOurs hardened.heap ⟨4⟩ = false := by
  obtain ⟨hnames, hchunk, hload, hfree, hstarted, hhardened, hours, _⟩ := tags_unforgeable
  refine ⟨(hnames .load imitation).1, ?chunk, ?load, hfree _ ?free, ?started, ?hardened,
    ?ours⟩
  case chunk =>
    have hok : ((ChunkLibrary.chunkFunction (SourceTag.load.namedChunk imitation)
        (text "return 1")).run.run id hardened).1.toOption.any (·.toOption.isSome) = true := by
      decide +kernel
    rcases hrun : (ChunkLibrary.chunkFunction (SourceTag.load.namedChunk imitation)
      (text "return 1")).run.run id hardened with ⟨_ | _ | f, m'⟩
    · rw [hrun] at hok
      cases hok
    · rw [hrun] at hok
      cases hok
    · exact ⟨f, m', rfl, hchunk _ _ _ _ _ _ _ hrun⟩
  case load =>
    have hok : ((HostAction.perform (ChunkLibrary.loadText
        ⟨[.ofString "return 1", .ofString imitation], ⟨0⟩, none⟩)).run id hardened).1.toOption.isSome =
          true := by
      decide +kernel
    rcases hrun : (HostAction.perform (ChunkLibrary.loadText
      ⟨[.ofString "return 1", .ofString imitation], ⟨0⟩, none⟩)).run id hardened with ⟨_ | results, m'⟩
    · rw [hrun] at hok
      cases hok
    · exact ⟨results, m', rfl, hload _ _ _ _ _ hrun⟩
  case free =>
    unfold Reserved
    decide +kernel
  case started =>
    obtain ⟨m, f, _, hstart, hf, hhardened⟩ := hstarted default default
    have hnone : (default : Host).config.environmentBootstrap = none := by decide +kernel
    exact ⟨m, f, hstart hnone, hf, hhardened⟩
  case hardened =>
    obtain ⟨k, hf, hk⟩ := isHardened_hardened
    have hbegins : ∃ m, (Step.callFunction ⟨3⟩ [.ofString "return 1",
        .ofString "=[tether:sandbox]"] none).run id hardened = (.ok (), m) :=
      exists_callFunction hf (by decide)
    obtain ⟨m, hcall⟩ := hbegins
    obtain ⟨left, m', hrun, hends⟩ := hhardened _ _ _ _ _ _ 20 isHardened_hardened hcall le_rfl
    exact ⟨m, left, m', hcall, hrun, hends⟩
  case ours =>
    rw [hours _ _ tagged_hardened]
    rfl

end Grapnel
