import Grapnel.Script.Closures
import Mathlib

namespace Grapnel

namespace ClosureRegistry

open Guest

variable {f g hooked replacement value : FunctionRef} {entries : List (FunctionRef × FunctionRef)}
  {r : ClosureRegistry}

theorem lookup_eraseKey :
    (eraseKey f entries).lookup g = if g = f then none else entries.lookup g := by
  induction entries with
  | nil => simp only [eraseKey, List.filter_nil, List.lookup_nil, ite_self]
  | cons entry entries ih =>
    obtain ⟨key, value⟩ := entry
    unfold eraseKey at ih ⊢
    by_cases hkey : key = f
    · rw [List.filter_cons_of_neg (by simp [hkey]), ih, List.lookup_cons]
      split
      · rfl
      · next hg => simp only [hkey, beq_false_of_ne hg]
    · rw [List.filter_cons_of_pos (by simp [hkey]), List.lookup_cons, ih, List.lookup_cons]
      by_cases hg : g = key
      · simp [hg, hkey]
      · simp only [beq_false_of_ne hg]

theorem lookup_insertKey :
    (insertKey f value entries).lookup g = if g = f then some value else entries.lookup g := by
  rw [insertKey, List.lookup_cons, lookup_eraseKey]
  by_cases hg : g = f
  · simp only [hg, beq_self_eq_true, if_true]
  · simp only [beq_false_of_ne hg, if_neg hg]

theorem lookup_hooks_record : (r.record hooked replacement).hooks.lookup f =
    if f = hooked then some replacement else r.hooks.lookup f := by
  unfold record
  split
  · rw [lookup_insertKey, lookup_eraseKey]
    split <;> rfl
  · exact lookup_insertKey

theorem lookup_replacements_record : (r.record hooked replacement).replacements.lookup g =
    if g = replacement then some hooked
    else if r.hooks.lookup hooked = some g then none
    else r.replacements.lookup g := by
  unfold record
  split
  · next old hold =>
    rw [lookup_insertKey, lookup_eraseKey, hold]
    simp only [Option.some.injEq, eq_comm (a := old)]
  · next hold =>
    rw [lookup_insertKey, hold, if_neg (c := none = some g) nofun]

theorem hooks_mark : (r.mark f).hooks = r.hooks := by
  unfold mark
  split <;> rfl

theorem replacements_mark : (r.mark f).replacements = r.replacements := by
  unfold mark
  split <;> rfl

/-- A registry and the hooks that were made, the newest first, each with the hooked function and its
replacement. In between the engine may record functions of its own. -/
inductive Reaches : List (FunctionRef × FunctionRef) → ClosureRegistry → Prop where
  | empty : Reaches [] .empty
  | marked {calls : List (FunctionRef × FunctionRef)} {r : ClosureRegistry} (f : FunctionRef) :
      Reaches calls r → Reaches calls (r.mark f)
  | hooked {calls : List (FunctionRef × FunctionRef)} {r : ClosureRegistry} (heap : Heap)
      (globals : TableRef) (hooked replacement : FunctionRef) :
      Reaches calls r →
      Reaches ((hooked, replacement) :: calls) (r.hook heap globals hooked replacement).2.2

/-- A function that it replaced was given another replacement, and it was not given as one since. -/
def Forgotten (calls : List (FunctionRef × FunctionRef)) (g : FunctionRef) : Prop :=
  ∃ later hooked other earlier, calls = later ++ (hooked, other) :: earlier ∧
    earlier.lookup hooked = some g ∧ other ≠ g ∧ ∀ call ∈ later, call.2 ≠ g

variable {calls : List (FunctionRef × FunctionRef)}

theorem forgotten_cons : Forgotten ((hooked, replacement) :: calls) g ↔
    replacement ≠ g ∧ (calls.lookup hooked = some g ∨ Forgotten calls g) := by
  constructor
  · rintro ⟨later, hooked', other, earlier, hcalls, hlookup, hother, hlater⟩
    rcases List.cons_eq_append_iff.1 hcalls with ⟨rfl, heq⟩ | ⟨later', rfl, rfl⟩
    · cases heq
      exact ⟨hother, .inl hlookup⟩
    · obtain ⟨hfirst, hrest⟩ := List.forall_mem_cons.1 hlater
      exact ⟨hfirst, .inr ⟨later', hooked', other, earlier, rfl, hlookup, hother, hrest⟩⟩
  · rintro ⟨hne, hlookup | ⟨later, hooked', other, earlier, rfl, hlookup, hother, hlater⟩⟩
    · exact ⟨[], hooked, replacement, calls, rfl, hlookup, hne, List.forall_mem_nil _⟩
    · exact ⟨(hooked, replacement) :: later, hooked', other, earlier, rfl, hlookup, hother,
        List.forall_mem_cons.2 ⟨hne, hlater⟩⟩

/-- What the two tables of hooks hold after a sequence of them. -/
structure Records (calls : List (FunctionRef × FunctionRef)) (r : ClosureRegistry) : Prop where
  hooks : ∀ f, r.hooks.lookup f = calls.lookup f
  /-- A replacement is known while it is not forgotten. -/
  replacements : ∀ g, (r.replacements.lookup g).isSome ↔
    (∃ call ∈ calls, call.2 = g) ∧ ¬ Forgotten calls g
  /-- Each known replacement replaces the function that is told. -/
  replaces : ∀ f g, r.replacements.lookup g = some f → calls.lookup f = some g

namespace Records

theorem empty : Records [] .empty where
  hooks _ := rfl
  replacements _ := ⟨nofun, fun ⟨⟨_, hmem, _⟩, _⟩ => nomatch hmem⟩
  replaces _ _ h := nomatch h

theorem mark (h : Records calls r) (f : FunctionRef) : Records calls (r.mark f) where
  hooks g := by
    rw [hooks_mark]
    exact h.hooks g
  replacements g := by
    rw [replacements_mark]
    exact h.replacements g
  replaces f' g hg := by
    rw [replacements_mark] at hg
    exact h.replaces f' g hg

theorem record (h : Records calls r) (hooked replacement : FunctionRef) :
    Records ((hooked, replacement) :: calls) (r.record hooked replacement) where
  hooks f := by
    rw [lookup_hooks_record, List.lookup_cons, h.hooks]
    by_cases hf : f = hooked
    · simp only [hf, if_true, beq_self_eq_true]
    · simp only [if_neg hf, beq_false_of_ne hf]
  replacements g := by
    rw [lookup_replacements_record, h.hooks, forgotten_cons]
    by_cases hg : g = replacement
    · -- it is given as a replacement just now
      subst hg
      rw [if_pos rfl]
      exact ⟨fun _ => ⟨⟨_, List.mem_cons_self, rfl⟩, fun hforgotten => hforgotten.1 rfl⟩, fun _ => rfl⟩
    rw [if_neg hg]
    have hgiven : (∃ call ∈ (hooked, replacement) :: calls, call.2 = g) ↔
        ∃ call ∈ calls, call.2 = g := by
      simp only [List.mem_cons, exists_eq_or_imp]
      exact or_iff_right (Ne.symm hg)
    rw [hgiven]
    by_cases hold : calls.lookup hooked = some g
    · rw [if_pos hold]
      exact ⟨nofun, fun ⟨_, hkept⟩ => absurd ⟨Ne.symm hg, .inl hold⟩ hkept⟩
    · rw [if_neg hold, h.replacements]
      refine and_congr_right fun _ => not_congr ?_
      rw [or_iff_right hold, and_iff_right (Ne.symm hg)]
  replaces f g hg := by
    rw [lookup_replacements_record, h.hooks] at hg
    rw [List.lookup_cons]
    split at hg
    · next heq =>
      cases hg
      simp only [beq_self_eq_true, heq]
    · split at hg
      · cases hg
      · next hold =>
        have hf := h.replaces f g hg
        have hne : f ≠ hooked := fun heq => hold (heq ▸ hf)
        simp only [beq_false_of_ne hne, hf]

theorem hook (h : Records calls r) (heap : Heap) (globals : TableRef)
    (hooked replacement : FunctionRef) :
    Records ((hooked, replacement) :: calls) (r.hook heap globals hooked replacement).2.2 :=
  (h.mark _).record hooked replacement

end Records

theorem Reaches.records (h : Reaches calls r) : Records calls r := by
  induction h with
  | empty => exact .empty
  | marked f _ ih => exact ih.mark f
  | hooked heap globals hooked replacement _ ih => exact ih.hook heap globals hooked replacement

theorem isOurs_iff (r : ClosureRegistry) (heap : Heap) (f : FunctionRef) : r.isOurs heap f = true ↔
    (r.hooks.lookup f).isSome ∨ (r.replacements.lookup f).isSome ∨ f ∈ r.provenance ∨
      (SourceTag.classify? (sourceOf heap f)).any (·.isManufactured) = true := by
  simp only [isOurs, isRecorded, Bool.or_eq_true, List.contains_iff_mem, or_assoc]

/-- Every hooked function is known as one of the engine's. So is its replacement if it is hooked or
made by the engine itself, and any other replacement just when it is not forgotten. -/
theorem isOurs_replacement_iff (h : Reaches calls r) (heap : Heap) :
    (∀ f, r.replacement? f = calls.lookup f) ∧
    (∀ f, (calls.lookup f).isSome → r.isOurs heap f = true) ∧
    ∀ f g, calls.lookup f = some g → (r.isOurs heap g = true ↔
      ¬ Forgotten calls g ∨ (calls.lookup g).isSome ∨ g ∈ r.provenance ∨
        (SourceTag.classify? (sourceOf heap g)).any (·.isManufactured) = true) := by
  have hr := h.records
  refine ⟨hr.hooks, ?_, ?_⟩
  · intro f hf
    rw [isOurs_iff, hr.hooks]
    exact .inl hf
  · intro f g hfg
    have hgiven : ∃ call ∈ calls, call.2 = g := by
      obtain ⟨later, earlier, rfl, _⟩ := List.lookup_eq_some_iff.1 hfg
      exact ⟨(f, g), List.mem_append_right _ List.mem_cons_self, rfl⟩
    rw [isOurs_iff, hr.hooks, hr.replacements, and_iff_right hgiven, or_left_comm]

/-- Four functions of a script. -/
def scriptHeap : Heap :=
  { Heap.empty with
    functions := Array.replicate 4
      (.guest { (default : Proto) with source := text "=[tether:input] main" } #[]) }

/-- Two functions with one replacement, of which the first is then hooked again. -/
def sharedReplacement : FunctionRef × Heap × ClosureRegistry :=
  let (_, heap, r) := empty.hook scriptHeap ⟨0⟩ ⟨0⟩ ⟨2⟩
  let (_, heap, r) := r.hook heap ⟨0⟩ ⟨1⟩ ⟨2⟩
  r.hook heap ⟨0⟩ ⟨0⟩ ⟨3⟩

theorem isOurs_replacement_iff_sharedReplacement :
    Reaches [(⟨0⟩, ⟨3⟩), (⟨1⟩, ⟨2⟩), (⟨0⟩, ⟨2⟩)] sharedReplacement.2.2 ∧
    sharedReplacement.2.2.replacement? ⟨1⟩ = some ⟨2⟩ ∧
    sharedReplacement.2.2.isOurs sharedReplacement.2.1 ⟨2⟩ = false := by
  have hreaches : Reaches [(⟨0⟩, ⟨3⟩), (⟨1⟩, ⟨2⟩), (⟨0⟩, ⟨2⟩)] sharedReplacement.2.2 :=
    .hooked _ ⟨0⟩ _ _ (.hooked _ ⟨0⟩ _ _ (.hooked scriptHeap ⟨0⟩ ⟨0⟩ ⟨2⟩ .empty))
  obtain ⟨hhooks, _, hours⟩ := isOurs_replacement_iff hreaches sharedReplacement.2.1
  refine ⟨hreaches, hhooks ⟨1⟩, ?_⟩
  rw [← Bool.not_eq_true, hours ⟨1⟩ ⟨2⟩ rfl]
  have hforgotten : Forgotten [(⟨0⟩, ⟨3⟩), (⟨1⟩, ⟨2⟩), (⟨0⟩, ⟨2⟩)] ⟨2⟩ :=
    ⟨[], ⟨0⟩, ⟨3⟩, _, rfl, rfl, by decide, List.forall_mem_nil _⟩
  have hsource : (SourceTag.classify? (sourceOf sharedReplacement.2.1 ⟨2⟩)).any (·.isManufactured) =
      false := by decide +kernel
  have hprovenance : ⟨2⟩ ∉ sharedReplacement.2.2.provenance := by decide +kernel
  rintro (hkept | hhooked | hmade | htag)
  · exact hkept hforgotten
  · cases hhooked
  · exact hprovenance hmade
  · rw [hsource] at htag
    cases htag

end ClosureRegistry

end Grapnel
