import Grapnel.Machine.Library.Closures
import Grapnel.Proofs.Machine.Stepping
import Grapnel.Proofs.Script.HookTable
import Grapnel.Proofs.Script.Rebinding

namespace Grapnel

open Guest

namespace Guest.Heap

variable {h m after later : Heap} {f g copy : FunctionRef} {proto proto' : Proto}
  {captured captured' : Array CellRef} {v : Value} {i j : Nat}

/-- A heap some time later: a guest function stays what it is, and no variable goes away. -/
structure Later (h later : Heap) : Prop where
  guest : ∀ (f : FunctionRef) (proto : Proto) (captured : Array CellRef),
    h.functions[f.index]? = some (.guest proto captured) →
      later.functions[f.index]? = some (.guest proto captured)
  cells : h.cells.size ≤ later.cells.size

theorem captured?_setCaptured_self {c : CellRef} (hc : (h.captures f)[i]? = some c)
    (hlt : c.index < h.cells.size) : (h.setCaptured f i v).captured? f i = some v := by
  rw [captured?, captures_setCaptured, hc, Option.map_some, setCaptured, hc]
  exact congrArg some (cell_setCell_self hlt)

theorem captured?_setCaptured_of_disjoint (hdisjoint : ∀ c ∈ h.captures f, c ∉ h.captures g) :
    (h.setCaptured f i v).captured? g j = h.captured? g j := by
  rw [captured?, captures_setCaptured, captured?]
  refine Option.map_congr fun d hd => ?_
  rw [setCaptured]
  split
  · next c hc =>
    refine cell_setCell_of_ne fun heq => ?_
    exact hdisjoint c (Array.mem_of_getElem? hc) (heq ▸ Array.mem_of_getElem? hd)
  · rfl

end Guest.Heap

namespace Step

variable {m : Machine} {a : Activation} {i : Nat}

theorem run_storeCaptured (run : Machine → Machine) (ha : a.captured = m.heap.captures a.function)
    (hi : i < a.captured.size) : ∃ frames, (instruction a (.storeCaptured i)).run run m =
      (.ok (), { m with
        frames, heap := m.heap.setCaptured a.function i (a.stack.headD .nil) }) := by
  obtain ⟨frames, hframes⟩ := exists_run_setTop run m { a with stack := a.stack.tail }
  have hcell : (m.heap.captures a.function)[i]? = some (a.captured.getD i default) := by
    rw [← ha, Array.getD_eq_getD_getElem?, Array.getElem?_eq_getElem hi, Option.getD_some]
  rw [instruction_storeCaptured, Action.run_bind_ok hframes, Heap.setCaptured, hcell]
  exact ⟨frames, rfl⟩

end Step

namespace Guest.Heap

variable {h m after : Heap} {f g copy : FunctionRef} {proto proto' : Proto}
  {captured captured' : Array CellRef}

/-- Whatever one function assigns to its variables at a later time is seen through it, and is never
seen through the other function. -/
def AssignsApart (h : Heap) (f g : FunctionRef) : Prop :=
  ∀ (run : Machine → Machine) (m : Machine) (a : Activation) (i : Nat), h.Later m.heap →
    a.function = f → a.captured = m.heap.captures f → i < a.captured.size →
    ∃ m', (Step.instruction a (.storeCaptured i)).run run m = (.ok (), m') ∧
      m'.heap.captured? f i = some (a.stack.headD .nil) ∧
      ∀ j, m'.heap.captured? g j = m.heap.captured? g j

theorem assignsApart_of_disjoint (hf : h.functions[f.index]? = some (.guest proto captured))
    (hg : h.functions[g.index]? = some (.guest proto' captured'))
    (hcell : ∀ c ∈ captured, c.index < h.cells.size) (hdisjoint : ∀ c ∈ captured, c ∉ captured') :
    h.AssignsApart f g := by
  rintro run m a i hlater rfl ha hi
  have hcaptures := captures_eq (hlater.guest _ _ _ hf)
  obtain ⟨frames, hrun⟩ := Step.run_storeCaptured run ha hi
  refine ⟨_, hrun, ?seen, fun j => captured?_setCaptured_of_disjoint ?unseen⟩
  case seen =>
    rw [ha] at hi
    have hc := Array.getElem?_eq_getElem hi
    refine captured?_setCaptured_self hc ((hcell _ ?_).trans_le hlater.cells)
    exact hcaptures ▸ Array.getElem_mem hi
  case unseen =>
    rw [hcaptures, captures_eq (hlater.guest _ _ _ hg)]
    exact hdisjoint

/-- What the table holds that the i-th variable of a function holds. -/
def capturedTable? (h : Heap) (f : FunctionRef) (i : Nat) : Option Table :=
  match h.captured? f i with
  | some (.table t) => some (h.table t)
  | _ => none

/-- A copy whose variables start with the values of the function's and go their own ways, but share
the tables in them: as long as neither variable is assigned anew, both show the table as it is. -/
structure SeparateCopy (h : Heap) (f : FunctionRef) (proto : Proto) (captured : Array CellRef)
    (copy : FunctionRef) (after : Heap) : Prop where
  copyOf : h.CopyOf f proto captured copy after
  assigned : after.AssignsApart f copy
  assignedInCopy : after.AssignsApart copy f
  shared : ∀ i t, h.captured? f i = some (.table t) → ∀ later : Heap,
    later.captured? f i = after.captured? f i → later.captured? copy i = after.captured? copy i →
    later.capturedTable? f i = some (later.table t) ∧
      later.capturedTable? copy i = some (later.table t)

theorem capturedTable?_eq {i : Nat} {t : TableRef} (hi : h.captured? f i = some (.table t)) :
    h.capturedTable? f i = some (h.table t) := by
  rw [capturedTable?, hi]

theorem separateCopy (hf : h.HasGuest f proto captured)
    (hcopy : h.CopyOf f proto captured copy after) (hfunctions : Persists h.functions after.functions)
    (hcells : Persists h.cells after.cells) : h.SeparateCopy f proto captured copy after := by
  obtain ⟨cells, hcode, hsize, hnodup, hown⟩ := hcopy.code
  have hkept := hfunctions _ _ hf.function
  -- the function's variables were there before the copy, the copy's were not
  have hdisjoint (c : CellRef) (hc : c ∈ captured) (hmem : c ∈ cells) : False := by
    have hnone := Array.getElem?_eq_none_iff.1 (hown c hmem).1
    exact absurd (hf.cell c hc) (Nat.not_lt.2 hnone)
  refine ⟨hcopy, ?assigned, ?assignedInCopy, ?shared⟩
  case assigned =>
    exact assignsApart_of_disjoint hkept hcode (fun c hc => hcells.lt_size (hf.cell c hc)) hdisjoint
  case assignedInCopy =>
    exact assignsApart_of_disjoint hcode hkept (fun c hc => (hown c hc).2)
      fun c hc hmem => hdisjoint c hmem hc
  case shared =>
    intro i t ht later hsame hsameCopy
    obtain ⟨w, hw, hhanded⟩ := hcopy.value i _ ht
    cases hhanded.eq_of_not_userdata fun u hu => Value.noConfusion hu
    exact ⟨capturedTable?_eq (hsame.trans (captured?_of_persists hf hfunctions hcells ht)),
      capturedTable?_eq (hsameCopy.trans hw)⟩

/-- A hook changes nothing but tables. -/
theorem exists_rebind_eq (h : Heap) (globals : TableRef) (hooked replacement : FunctionRef) :
    ∃ tables, h.rebind globals hooked replacement = { h with tables } := by
  have hfoldl (ts : List TableRef) (h : Heap) : ∃ tables,
      ts.foldl (fun h t => h.updateTable t (·.rebind hooked replacement)) h = { h with tables } := by
    induction ts generalizing h with
    | nil => exact ⟨h.tables, rfl⟩
    | cons t ts ih =>
      obtain ⟨tables, htables⟩ := ih (h.updateTable t (·.rebind hooked replacement))
      exact ⟨tables, htables⟩
  obtain ⟨tables, htables⟩ := hfoldl _ (h.updateTable globals (·.rebind hooked replacement))
  exact ⟨tables, htables⟩

theorem CopyOf.of_tables {tables : Array Table} (hcopy : h.CopyOf f proto captured copy m) :
    h.CopyOf f proto captured copy { m with tables } where
  new := hcopy.new
  code := hcopy.code
  value i v hv := by
    obtain ⟨w, hw, hhanded⟩ := hcopy.value i v hv
    exact ⟨w, hw, hhanded.mono (.refl _)⟩

end Guest.Heap

namespace ClosureRegistry

variable {r : ClosureRegistry} {f hooked replacement : FunctionRef}

theorem mem_provenance_mark : f ∈ (r.mark f).provenance := by
  rw [mark]
  split
  · next hmem => exact hmem
  · exact List.mem_cons_self

theorem provenance_record : (r.record hooked replacement).provenance = r.provenance := by
  rw [record]
  split <;> rfl

end ClosureRegistry

namespace ClosureLibrary

open Guest.Heap

variable {run : Machine → Machine} {m : Machine} {c : NativeCall} {f replacement : FunctionRef}
  {proto : Proto} {captured : Array CellRef}

theorem run_copy (hfirst : c.arg 1 = .function f) : (copy c).run.run run m =
    (.ok (.ok [.function (m.heap.duplicate m.globals f).1]), { m with
      heap := (m.heap.duplicate m.globals f).2
      closures := m.closures.mark (m.heap.duplicate m.globals f).1 }) := by
  rw [copy, hfirst]
  rfl

theorem run_hook (hfirst : c.arg 1 = .function f) (hsecond : c.arg 2 = .function replacement) :
    (hook c).run.run run m =
      (.ok (.ok [.function (m.heap.duplicate m.globals f).1]), { m with
        heap := (m.heap.duplicate m.globals f).2.rebind m.globals f replacement
        closures := (m.closures.mark (m.heap.duplicate m.globals f).1).record f replacement }) := by
  rw [hook, hfirst, hsecond]
  rfl

/-- The guest is told that the engine made a function. -/
def Recognised (m : Machine) (f : FunctionRef) : Prop :=
  ∀ (run : Machine → Machine) (query : NativeCall), query.arg 1 = .function f →
    (isOurs query).run.run run m = (.ok (.ok [.boolean true]), m)

theorem recognised_of_provenance (h : f ∈ m.closures.provenance) : Recognised m f := by
  intro run query hquery
  have hours : m.closures.isOurs m.heap f = true :=
    (ClosureRegistry.isOurs_iff _ _ _).2 (.inr (.inr (.inl h)))
  rw [isOurs, hquery, ← hours]
  rfl

/-- A copy of a guest function, and what a hook answers for one, is a new function with the same
code. Each of its variables is its own and starts with the value of the function's, or for a failure
with a new object that carries it. What is assigned later through one of the two functions is not
seen through the other, while both see what becomes of a table that they captured. The guest is told
that the engine made the copy; making it changes nothing that was there. -/
theorem copies_capture_by_value (hf : m.heap.HasGuest f proto captured)
    (hfirst : c.arg 1 = .function f) (run : Machine → Machine) :
    (∃ g heap closures, (copy c).run.run run m =
        (.ok (.ok [.function g]), { m with heap, closures }) ∧
      m.heap.SeparateCopy f proto captured g heap ∧ m.heap.Extends heap ∧
      Recognised { m with heap, closures } g) ∧
    ∀ replacement, c.arg 2 = .function replacement →
      ∃ g copied heap closures, (hook c).run.run run m =
          (.ok (.ok [.function g]), { m with heap, closures }) ∧
        m.heap.SeparateCopy f proto captured g heap ∧ m.heap.Extends copied ∧
        heap = copied.rebind m.globals f replacement ∧
        Recognised { m with heap, closures } g := by
  obtain ⟨hcopy, hextends⟩ := copyOf_duplicate hf m.globals
  refine ⟨⟨_, _, _, run_copy hfirst, ?_, hextends, ?_⟩, fun replacement hsecond =>
    ⟨_, _, _, _, run_hook hfirst hsecond, ?_, hextends, rfl, ?_⟩⟩
  · exact separateCopy hf hcopy hextends.functions hextends.cells
  · exact recognised_of_provenance ClosureRegistry.mem_provenance_mark
  · obtain ⟨tables, htables⟩ := exists_rebind_eq (m.heap.duplicate m.globals f).2 m.globals f
      replacement
    rw [htables]
    exact separateCopy hf hcopy.of_tables hextends.functions hextends.cells
  · refine recognised_of_provenance ?_
    rw [ClosureRegistry.provenance_record]
    exact ClosureRegistry.mem_provenance_mark

/-- A machine with a function that captured a number, the globals and a failure. -/
def capturing : Machine :=
  { (default : Machine) with
    globals := ⟨0⟩
    heap := { Heap.empty with
      tables := #[.empty]
      functions := #[.guest default #[⟨0⟩, ⟨1⟩, ⟨2⟩]]
      cells := #[.integer 7, .table ⟨0⟩, .userdata ⟨0⟩]
      userdata := #[.failure (.raised "denied")] } }

theorem hasGuest_capturing : capturing.heap.HasGuest ⟨0⟩ default #[⟨0⟩, ⟨1⟩, ⟨2⟩] where
  function := rfl
  cell := by decide
  userdatum := by
    intro c hc u hu
    simp only [List.mem_toArray, List.mem_cons, List.not_mem_nil, or_false] at hc
    rcases hc with rfl | rfl | rfl <;> cases hu
    decide

theorem copies_capture_by_value_capturing :
    capturing.heap.HasGuest ⟨0⟩ default #[⟨0⟩, ⟨1⟩, ⟨2⟩] ∧
    (∃ g m, (copy ⟨[.function ⟨0⟩], ⟨1⟩, none⟩).run.run id capturing =
        (.ok (.ok [.function g]), m) ∧ g ≠ ⟨0⟩ ∧ m.heap.captured? g 0 = some (.integer 7) ∧
      m.heap.captured? g 1 = some (.table ⟨0⟩)) ∧
    ∃ g m, (hook ⟨[.function ⟨0⟩, .function ⟨1⟩], ⟨1⟩, none⟩).run.run id capturing =
        (.ok (.ok [.function g]), m) ∧ g ≠ ⟨0⟩ ∧ m.heap.captured? g 0 = some (.integer 7) ∧
      m.heap.captured? g 1 = some (.table ⟨0⟩) := by
  have hvalues (g : FunctionRef) (heap : Heap)
      (hcopy : capturing.heap.CopyOf ⟨0⟩ default #[⟨0⟩, ⟨1⟩, ⟨2⟩] g heap) : g ≠ ⟨0⟩ ∧
      heap.captured? g 0 = some (.integer 7) ∧ heap.captured? g 1 = some (.table ⟨0⟩) := by
    refine ⟨?new, ?number, ?table⟩
    case new =>
      rintro rfl
      exact absurd hcopy.new (by simp [capturing])
    case number =>
      obtain ⟨w, hw, hhanded⟩ := hcopy.value 0 (.integer 7) rfl
      rw [hw, hhanded.eq_of_not_userdata fun u hu => Value.noConfusion hu]
    case table =>
      obtain ⟨w, hw, hhanded⟩ := hcopy.value 1 (.table ⟨0⟩) rfl
      rw [hw, hhanded.eq_of_not_userdata fun u hu => Value.noConfusion hu]
  obtain ⟨⟨g, heap, closures, hrun, hcopy, _⟩, _⟩ :=
    copies_capture_by_value (c := ⟨[.function ⟨0⟩], ⟨1⟩, none⟩) hasGuest_capturing rfl id
  obtain ⟨_, hhook⟩ := copies_capture_by_value (c := ⟨[.function ⟨0⟩, .function ⟨1⟩], ⟨1⟩, none⟩)
    hasGuest_capturing rfl id
  obtain ⟨g', copied, heap', closures', hrun', hcopy', _⟩ := hhook ⟨1⟩ rfl
  exact ⟨hasGuest_capturing, ⟨g, _, hrun, hvalues g heap hcopy.copyOf⟩,
    g', _, hrun', hvalues g' heap' hcopy'.copyOf⟩

/-- The failure in the copy's variable is not the object that the function holds. -/
theorem captured_failure_not_copied :
    capturing.heap.HasGuest ⟨0⟩ default #[⟨0⟩, ⟨1⟩, ⟨2⟩] ∧
    ∃ g m, (copy ⟨[.function ⟨0⟩], ⟨1⟩, none⟩).run.run id capturing =
        (.ok (.ok [.function g]), m) ∧
      m.heap.captured? ⟨0⟩ 2 = some (.userdata ⟨0⟩) ∧ m.heap.captured? g 2 ≠ some (.userdata ⟨0⟩) := by
  obtain ⟨hcopy, hextends⟩ := copyOf_duplicate hasGuest_capturing capturing.globals
  obtain ⟨w, hw, hhanded⟩ := hcopy.value 2 (.userdata ⟨0⟩) rfl
  refine ⟨hasGuest_capturing, _, _, run_copy rfl, ?_, ?_⟩
  · exact captured?_of_persists hasGuest_capturing hextends.functions hextends.cells rfl
  · rw [hw]
    intro heq
    exact hhanded.ne_of_failure rfl (Option.some.inj heq)

end ClosureLibrary

end Grapnel
