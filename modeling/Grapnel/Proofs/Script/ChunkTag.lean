import Grapnel.Machine.Library.Base
import Grapnel.Machine.Library.Closures
import Grapnel.Machine.Library.Chunks
import Grapnel.Proofs.Guest.ChunkName
import Grapnel.Proofs.Machine.Stepping
import Grapnel.Proofs.Script.SourceName

namespace Grapnel

open Guest

namespace Guest

/-- Every function of a code shows the engine this tag. -/
def Proto.Tagged (tag? : Option SourceTag) (p : Proto) : Prop :=
  ∀ q : Proto, q.Within p → SourceTag.classify? (HostAction.hostText q.source) = tag?

/-- A function whose code shows the engine this tag, as do all functions written inside it. -/
def Heap.Tagged (h : Heap) (tag? : Option SourceTag) (f : FunctionRef) : Prop :=
  ∃ p captured, h.function f = .guest p captured ∧ p.Tagged tag?

theorem Proto.Named.tagged {name : Text} {p : Proto} (h : p.Named name) :
    p.Tagged (SourceTag.classify? (HostAction.hostText name)) := fun q hq => by rw [h q hq]

@[simp] theorem Heap.function_newFunction (h : Heap) (f : Function) :
    (h.newFunction f).2.function (h.newFunction f).1 = f := by
  simp [Heap.function, Heap.newFunction]

end Guest

section

variable {heap : Heap} {f : FunctionRef} {tag? : Option SourceTag}

theorem classify?_sourceOf (h : heap.Tagged tag? f) :
    SourceTag.classify? (ClosureRegistry.sourceOf heap f) = tag? := by
  obtain ⟨p, captured, hf, hp⟩ := h
  rw [ClosureRegistry.sourceOf, hf]
  exact hp p (.self p)

theorem isOurs_tagged (r : ClosureRegistry) (h : heap.Tagged tag? f) :
    r.isOurs heap f = (r.isRecorded f || tag?.any (·.isManufactured)) := by
  rw [ClosureRegistry.isOurs, classify?_sourceOf h]

theorem callerIsHost_untagged {m : Machine} {a : Activation} {depth used : Nat}
    {frames : List Frame} (h : m.heap.Tagged none a.function) :
    ClosureLibrary.callerIsHost m (⟨.guest a, depth, used⟩ :: frames) =
      (!(ClosureRegistry.sourceOf m.heap a.function).startsWith "@" &&
        ClosureLibrary.callerIsHost m frames) := by
  simp only [ClosureLibrary.callerIsHost, classify?_sourceOf h, Option.any_none]
  cases (ClosureRegistry.sourceOf m.heap a.function).startsWith "@" <;> rfl

end

namespace HostAction

variable {α β : Type} {run : Machine → Machine} {m m' : Machine}

theorem of_perform {a : HostAction (List Value)} {results : List Value}
    (h : (perform a).run run m = (.ok results, m')) : a.run.run run m = (.ok (.ok results), m') := by
  obtain ⟨answer, m₁, hrun, h⟩ := Action.of_run_bind h
  cases answer with
  | ok x =>
    cases h
    exact hrun
  | error failure =>
    obtain ⟨e, m₂, hraise⟩ := Action.raises_raise (α := List Value) failure run m₁
    cases hraise.symm.trans h

theorem of_run_bind {a : HostAction α} {f : α → HostAction β} {y : β}
    (h : (a >>= f).run.run run m = (.ok (.ok y), m')) :
    ∃ x m₁, a.run.run run m = (.ok (.ok x), m₁) ∧ (f x).run.run run m₁ = (.ok (.ok y), m') := by
  obtain ⟨answer, m₁, hrun, h⟩ := Action.of_run_bind (a := a.run) h
  cases answer with
  | ok x => exact ⟨x, m₁, hrun, h⟩
  | error failure => cases h

end HostAction

namespace ChunkLibrary

variable {run : Machine → Machine} {m m' : Machine} {f : FunctionRef} {name : String}
  {source : Text} {p : Proto} {c : NativeCall} {results : List Value}

theorem compileNamed_ok (h : compileNamed name source = .ok p) :
    p.Named (text name) ∧ 0 ∉ (text name).toList := by
  simp only [compileNamed] at h
  split at h
  · cases h
  · next hnul =>
    refine ⟨?_, fun hmem => ?_⟩
    · split at h
      · next hcompile =>
        cases h
        exact Chunk.named_of_compile hcompile
      · cases h
    · exact absurd (List.findIdx?_eq_none_iff.1 hnul 0 hmem) (by decide)

theorem tagged_of_chunkFunction {tag : SourceTag}
    (h : (chunkFunction (tag.namedChunk name) source).run.run run m = (.ok (.ok f), m')) :
    m'.heap.Tagged (some tag) f := by
  cases hcompile : compileNamed (tag.namedChunk name) source with
  | error failure =>
    rw [chunkFunction, hcompile] at h
    cases h
  | ok p =>
    obtain ⟨hnamed, hnul⟩ := compileNamed_ok hcompile
    rw [chunkFunction, hcompile] at h
    cases h
    refine ⟨p, _, Heap.function_newFunction .., ?_⟩
    have htagged := hnamed.tagged
    rwa [SourceTag.hostText_text hnul, SourceTag.classify?_namedChunk] at htagged

theorem orText_ok {a : HostAction FunctionRef}
    (h : (orText a).run.run run m = (.ok (.ok results), m')) :
    (∃ f, results = [.function f, .nil] ∧ a.run.run run m = (.ok (.ok f), m')) ∨
      ∃ error, results = [.nil, error] := by
  obtain ⟨answer, m₁, hrun, h⟩ := Action.of_run_bind h
  cases answer with
  | ok results' =>
    cases h
    obtain ⟨f, m₁, ha, h⟩ := HostAction.of_run_bind hrun
    cases h
    exact .inl ⟨f, rfl, ha⟩
  | error failure =>
    cases h
    exact .inr ⟨_, rfl⟩

theorem tagged_of_loadText (h : (HostAction.perform (loadText c)).run run m = (.ok results, m')) :
    (∃ f, results = [.function f, .nil] ∧ m'.heap.Tagged (some .load) f) ∨
      ∃ error, results = [.nil, error] := by
  obtain ⟨source, m₁, _, h⟩ := HostAction.of_run_bind (HostAction.of_perform h)
  obtain ⟨name?, m₂, _, h⟩ := HostAction.of_run_bind h
  exact (orText_ok h).imp_left fun ⟨f, hresults, hf⟩ => ⟨f, hresults, tagged_of_chunkFunction hf⟩

end ChunkLibrary

namespace BaseLibrary

open SourceTag Grapnel.Action

variable {run : Machine → Machine} {m m' : Machine} {c : NativeCall} {i : Nat}
  {name default source : Text} {proto : Proto} {results : List Value}

theorem stringOr_ok (h : (c.stringOr i default).run run m = (.ok name, m')) :
    c.arg i = .nil ∧ name = default ∨ (c.arg i).text? = some name := by
  rw [NativeCall.stringOr] at h
  split at h
  · next habsent =>
    cases h
    exact .inl ⟨eq_of_beq habsent, rfl⟩
  · rw [NativeCall.string] at h
    split at h
    · next s hs =>
      cases h
      exact .inr hs
    · obtain ⟨e, m₁, herror⟩ := raises_refuseType c i "string" run m
      cases herror.symm.trans h

theorem tagged_of_compile (hname : Reserved name → name = source)
    (h : Chunk.compile (untilNul name) source = .ok proto) : proto.Tagged none := by
  have htagged := (Chunk.named_of_compile h).tagged
  rwa [classify?_hostText_eq_none] at htagged
  intro hreserved
  have hopening := Reserved.of_untilNul hreserved
  obtain ⟨rest, hrest⟩ := exists_equals_of_reserved (hname hopening ▸ hopening)
  obtain ⟨message, hcompile⟩ := Chunk.compile_equals (untilNul name) hrest
  cases hcompile.symm.trans h

/-- What `load` answers. -/
def Answers (h : Heap) (results : List Value) : Prop :=
  (∃ f, results = [.function f] ∧ h.Tagged none f) ∨ ∃ error, results = [.nil, error]

theorem answers_of_closeChunk {environment : Value} (htagged : proto.Tagged none)
    (h : (do return [← closeChunk proto environment] : Action (List Value)).run run m =
      (.ok results, m')) : Answers m'.heap results := by
  cases h
  exact .inl ⟨_, rfl, proto, _, Heap.function_newFunction _ _, htagged⟩

theorem not_reserved_of_text? {v : Value} (hv : ∀ s, v = .string s → ¬ Reserved s)
    (h : v.text? = some name) : ¬ Reserved name := by
  have hnumeral (n : Numeral) : ¬ Reserved n.text := by
    obtain ⟨s, hs, hnumeric⟩ := n.exists_numeric
    exact hs ▸ not_reserved_text hnumeric
  cases v with
  | string s =>
    cases h
    exact hv name rfl
  | integer n =>
    cases h
    exact hnumeral (.integer n)
  | float x =>
    cases h
    exact hnumeral (.float x)
  | _ => cases h

/-- Unless it is given a reserved name, `load` makes no function that shows a tag. -/
theorem answers_of_load (hname : ∀ s, c.arg 2 = .string s → ¬ Reserved s)
    (h : (load c).run run m = (.ok results, m')) : Answers m'.heap results := by
  have hplain {name default : Text} {m m' : Machine}
      (h : (c.stringOr 2 default).run run m = (.ok name, m')) :
      name = default ∨ ¬ Reserved name :=
    (stringOr_ok h).imp And.right fun htext => not_reserved_of_text? hname htext
  simp only [load] at h
  split at h
  · next source hsource =>
    obtain ⟨name, m₁, hor, h⟩ := of_run_bind h
    have hreserved : Reserved name → name = source := (hplain hor).resolve_right ∘ not_not_intro
    rw [run_bind_ok rfl] at h
    cases hcompile : Chunk.compile (untilNul name) source with
    | ok proto =>
      rw [hcompile, run_bind_ok rfl] at h
      exact answers_of_closeChunk (tagged_of_compile hreserved hcompile) h
    | error message =>
      rw [hcompile] at h
      cases h
      exact .inr ⟨_, rfl⟩
  · obtain ⟨name, m₁, hor, h⟩ := of_run_bind h
    have hdefault : ¬ Reserved (text "=(load)") := by
      rw [Reserved, toList_text, toList_text]
      decide
    have hreserved : ¬ Reserved name := (hplain hor).elim (· ▸ hdefault) id
    obtain ⟨reader, m₂, _, h⟩ := of_run_bind h
    obtain ⟨source, m₃, _, h⟩ := of_run_bind h
    cases source with
    | error error =>
      cases h
      exact .inr ⟨_, rfl⟩
    | ok source =>
      rw [run_bind_ok rfl] at h
      cases hcompile : Chunk.compile (untilNul name) source with
      | ok proto =>
        rw [hcompile, run_bind_ok rfl] at h
        exact answers_of_closeChunk (tagged_of_compile (absurd · hreserved) hcompile) h
      | error message =>
        rw [hcompile] at h
        cases h
        exact .inr ⟨_, rfl⟩

end BaseLibrary

end Grapnel
