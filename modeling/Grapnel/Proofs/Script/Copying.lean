import Grapnel.Script.Closures
import Mathlib

namespace Grapnel

open Guest

/-- What an array holds is at the same place in another one. -/
def Persists {α : Type} (old new : Array α) : Prop :=
  ∀ (i : Nat) (x : α), old[i]? = some x → new[i]? = some x

namespace Persists

variable {α : Type} {old mid new : Array α} {x : α}

theorem refl (old : Array α) : Persists old old := fun _ _ h => h

theorem trans (h : Persists old mid) (h' : Persists mid new) : Persists old new :=
  fun i x hx => h' i x (h i x hx)

theorem lt_size (h : Persists old new) {i : Nat} (hi : i < old.size) : i < new.size :=
  (Array.getElem?_eq_some_iff.1 (h i _ (Array.getElem?_eq_getElem hi))).1

theorem size_le (h : Persists old new) : old.size ≤ new.size := by
  by_contra hlt
  exact absurd (h.lt_size (Nat.not_le.1 hlt)) (Nat.lt_irrefl _)

theorem append (old more : Array α) : Persists old (old ++ more) := fun i x hx => by
  rw [Array.getElem?_append_left (Array.getElem?_eq_some_iff.1 hx).1, hx]

theorem push (old : Array α) (x : α) : Persists old (old.push x) := fun i y hy => by
  rw [Array.getElem?_push_lt (Array.getElem?_eq_some_iff.1 hy).1]
  exact congrArg some (Array.getElem?_eq_some_iff.1 hy).2

theorem setIfInBounds (h : Persists old new) {i : Nat} (hi : old.size ≤ i) :
    Persists old (new.setIfInBounds i x) := fun j y hy => by
  have hj := (Array.getElem?_eq_some_iff.1 hy).1
  rw [Array.getElem?_setIfInBounds, if_neg (by omega)]
  exact h j y hy

end Persists

namespace Guest.Heap

variable {h m after : Heap} {f g copy : FunctionRef} {globals : TableRef} {proto : Proto}
  {captured cells : Array CellRef} {v w : Value} {i : Nat}

/-- A heap that has all that another one has, unchanged, and that may have more functions, variables
and objects of the host. -/
structure Extends (h after : Heap) : Prop where
  tables : after.tables = h.tables
  threads : after.threads = h.threads
  metatables : (after.textMeta, after.connectionMeta, after.failureMeta) =
    (h.textMeta, h.connectionMeta, h.failureMeta)
  functions : Persists h.functions after.functions
  cells : Persists h.cells after.cells
  userdata : Persists h.userdata after.userdata

theorem Extends.trans (hm : h.Extends m) (hafter : m.Extends after) : h.Extends after where
  tables := hafter.tables.trans hm.tables
  threads := hafter.threads.trans hm.threads
  metatables := hafter.metatables.trans hm.metatables
  functions := hm.functions.trans hafter.functions
  cells := hm.cells.trans hafter.cells
  userdata := hm.userdata.trans hafter.userdata

/-- A guest function of a heap that has all variables of the function, and the objects of the host in
them. -/
structure HasGuest (h : Heap) (f : FunctionRef) (proto : Proto) (captured : Array CellRef) : Prop where
  function : h.functions[f.index]? = some (.guest proto captured)
  cell : ∀ c ∈ captured, c.index < h.cells.size
  userdatum : ∀ c ∈ captured, ∀ u, h.cell c = .userdata u → u.index < h.userdata.size

theorem function_eq (hf : h.functions[f.index]? = some (.guest proto captured)) :
    h.function f = .guest proto captured := by
  rw [Heap.function, Array.getD_eq_getD_getElem?, hf, Option.getD_some]

theorem captures_eq (hf : h.functions[f.index]? = some (.guest proto captured)) :
    h.captures f = captured := by
  rw [captures, function_eq hf]

theorem cell_eq_of_persists (hcells : Persists h.cells after.cells) {c : CellRef}
    (hc : c.index < h.cells.size) : after.cell c = h.cell c := by
  have hsome := Array.getElem?_eq_getElem hc
  rw [cell, cell, Array.getD_eq_getD_getElem?, Array.getD_eq_getD_getElem?, hsome,
    hcells _ _ hsome]

theorem captured?_eq_some_iff (hf : h.functions[f.index]? = some (.guest proto captured)) :
    h.captured? f i = some v ↔ ∃ c, captured[i]? = some c ∧ h.cell c = v := by
  rw [captured?, captures_eq hf, Option.map_eq_some_iff]

theorem captured?_of_persists (hf : h.HasGuest f proto captured)
    (hfunctions : Persists h.functions after.functions) (hcells : Persists h.cells after.cells)
    (hi : h.captured? f i = some v) : after.captured? f i = some v := by
  obtain ⟨c, hc, rfl⟩ := (captured?_eq_some_iff hf.function).1 hi
  refine (captured?_eq_some_iff (hfunctions _ _ hf.function)).2 ⟨c, hc, ?_⟩
  exact cell_eq_of_persists hcells (hf.cell c (Array.mem_of_getElem? hc))

/-- A value that the host took from one heap and gave back in another: the same one, or for a failure
an object made since that carries it. -/
inductive HandedOver (h after : Heap) : Value → Value → Prop
  | same {v : Value} :
      (∀ u failure, v = .userdata u → h.userdata[u.index]? ≠ some (.failure failure)) →
      HandedOver h after v v
  | anew {u u' : UserdataRef} {failure : Failure} :
      h.userdata[u.index]? = some (.failure failure) → h.userdata.size ≤ u'.index →
      after.userdata[u'.index]? = some (.failure failure) →
      HandedOver h after (.userdata u) (.userdata u')

theorem HandedOver.mono (hv : h.HandedOver m v w) (hkept : Persists m.userdata after.userdata) :
    h.HandedOver after v w := by
  cases hv with
  | same hother => exact .same hother
  | anew hold hnew hcarried => exact .anew hold hnew (hkept _ _ hcarried)

theorem HandedOver.eq_of_not_userdata (hv : h.HandedOver after v w)
    (hother : ∀ u, v ≠ .userdata u) : w = v := by
  cases hv with
  | same => rfl
  | anew => exact absurd rfl (hother _)

/-- A failure comes back as another object. -/
theorem HandedOver.ne_of_failure {u : UserdataRef} {failure : Failure}
    (hu : h.userdata[u.index]? = some (.failure failure)) (hv : h.HandedOver after (.userdata u) w) :
    w ≠ .userdata u := by
  cases hv with
  | same hother => exact absurd hu (hother u failure rfl)
  | anew _ hnew _ =>
    intro heq
    cases heq
    exact absurd (Array.getElem?_eq_some_iff.1 hu).1 (Nat.not_lt.2 hnew)

theorem throughHost_snd (h : Heap) (v : Value) :
    ∃ more, (h.throughHost v).2 = { h with userdata := h.userdata ++ more } := by
  unfold throughHost
  split
  · split
    · exact ⟨#[_], rfl⟩
    · exact ⟨#[], rfl⟩
  · exact ⟨#[], rfl⟩

theorem userdatum_eq_failure_iff {u : UserdataRef} {failure : Failure} :
    h.userdatum u = .failure failure ↔ h.userdata[u.index]? = some (.failure failure) := by
  rw [userdatum, Array.getD_eq_getD_getElem?]
  rcases h.userdata[u.index]? with _ | x
  · constructor <;> intro hfailure <;> cases hfailure
  · rw [Option.getD_some, Option.some.injEq]

/-- An object that the heap had before is looked at as it was then. -/
theorem handedOver_throughHost (hm : Persists h.userdata m.userdata)
    (hv : ∀ u, v = .userdata u → u.index < h.userdata.size) :
    h.HandedOver (m.throughHost v).2 v (m.throughHost v).1 := by
  have hsame (u : UserdataRef) (heq : v = .userdata u) :
      m.userdata[u.index]? = h.userdata[u.index]? := by
    have hsome := Array.getElem?_eq_getElem (hv u heq)
    rw [hsome, hm _ _ hsome]
  unfold throughHost
  split
  · next u =>
    split
    · next failure hfailure =>
      have hold := userdatum_eq_failure_iff.1 hfailure
      rw [hsame u rfl] at hold
      exact .anew hold hm.size_le Array.getElem?_push_size
    · next connection hconnection =>
      refine .same fun u' failure heq hfailure => ?_
      cases heq
      rw [← hsame u rfl, ← userdatum_eq_failure_iff, hconnection] at hfailure
      cases hfailure
  · next hother => exact .same fun u _ heq _ => hother u heq

/-- The variables that are made next. -/
def freshCells (h : Heap) (count : Nat) : List CellRef :=
  (List.range' h.cells.size count).map CellRef.mk

theorem getElem?_freshCells {count : Nat} : (h.freshCells count).toArray[i]? =
    if i < count then some ⟨h.cells.size + i⟩ else none := by
  rw [List.getElem?_toArray, freshCells, List.getElem?_map]
  split
  · next hi => rw [List.getElem?_range' hi, Nat.one_mul, Option.map_some]
  · next hi =>
    rw [List.getElem?_eq_none (by rwa [List.length_range', ← Nat.not_lt]), Option.map_none]

theorem length_freshCells {count : Nat} : (h.freshCells count).length = count := by
  rw [freshCells, List.length_map, List.length_range']

theorem newCells_eq (h : Heap) (vs : List Value) :
    h.newCells vs = (h.freshCells vs.length, { h with cells := h.cells ++ vs.toArray }) := by
  induction vs generalizing h with
  | nil =>
    rw [newCells, Array.append_empty]
    rfl
  | cons v vs ih =>
    have hcells : h.cells.push v ++ vs.toArray = h.cells ++ (v :: vs).toArray := by
      simp
    simp only [newCells, ih, newCell, hcells, freshCells, Array.size_push, List.length_cons,
      List.range'_succ, List.map_cons]

/-- The copy that is made next. -/
def nextFunction (h : Heap) : FunctionRef := ⟨h.functions.size⟩

theorem loadCode_eq (h : Heap) (globals : TableRef) (proto : Proto) (count : Nat) :
    h.loadCode globals proto count = (h.nextFunction, { h with
      cells := h.cells ++ ((List.replicate count Value.nil).set 0 (.table globals)).toArray
      functions := h.functions.push (.guest proto (h.freshCells count).toArray) }) := by
  rw [loadCode, newCells_eq, List.length_set, List.length_replicate]
  rfl

/-- The copy while the values of the first `i` variables are handed over. -/
structure CopiedUpTo (h : Heap) (proto : Proto) (captured : Array CellRef) (i : Nat) (m : Heap) :
    Prop where
  grown : h.Extends m
  code : m.functions[h.nextFunction.index]? =
    some (.guest proto (h.freshCells captured.size).toArray)
  room : h.cells.size + captured.size ≤ m.cells.size
  value : ∀ j < i, ∀ c, captured[j]? = some c →
    h.HandedOver m (h.cell c) (m.cell ⟨h.cells.size + j⟩)

theorem copiedUpTo_loadCode (h : Heap) (globals : TableRef) (proto : Proto)
    (captured : Array CellRef) :
    h.CopiedUpTo proto captured 0 (h.loadCode globals proto captured.size).2 := by
  rw [loadCode_eq]
  constructor
  case grown => exact ⟨rfl, rfl, rfl, .push _ _, .append _ _, .refl _⟩
  case code => exact Array.getElem?_push_size
  case room =>
    simp only [Array.size_append, List.size_toArray, List.length_set, List.length_replicate,
      Nat.le_refl]
  case value => exact fun j hj => absurd hj (Nat.not_lt_zero j)

theorem setCaptured_eq (hf : h.functions[f.index]? = some (.guest proto captured)) {c : CellRef}
    (hc : captured[i]? = some c) : h.setCaptured f i v = h.setCell c v := by
  rw [setCaptured, captures_eq hf, hc]

theorem cell_setCell_self {c : CellRef} (hc : c.index < h.cells.size) :
    (h.setCell c v).cell c = v := by
  rw [cell, setCell, Array.getD_eq_getD_getElem?, Array.getElem?_setIfInBounds_self_of_lt hc,
    Option.getD_some]

theorem cell_setCell_of_ne {c d : CellRef} (hne : d ≠ c) : (h.setCell c v).cell d = h.cell d := by
  have hindex : c.index ≠ d.index := fun heq => hne (congrArg CellRef.mk heq).symm
  rw [cell, setCell, Array.getD_eq_getD_getElem?, Array.getElem?_setIfInBounds_ne hindex, cell,
    Array.getD_eq_getD_getElem?]

namespace CopiedUpTo

theorem append_userdata (hm : h.CopiedUpTo proto captured i m) (more : Array Userdata) :
    h.CopiedUpTo proto captured i { m with userdata := m.userdata ++ more } where
  grown := hm.grown.trans ⟨rfl, rfl, rfl, .refl _, .refl _, .append _ _⟩
  code := hm.code
  room := hm.room
  value j hj c hc := (hm.value j hj c hc).mono (.append _ _)

theorem setCaptured (hm : h.CopiedUpTo proto captured i m) {c : CellRef}
    (hc : captured[i]? = some c) (hw : h.HandedOver m (h.cell c) w) :
    h.CopiedUpTo proto captured (i + 1) (m.setCaptured h.nextFunction i w) := by
  have hlt : i < captured.size := (Array.getElem?_eq_some_iff.1 hc).1
  have hfresh : (h.freshCells captured.size).toArray[i]? = some ⟨h.cells.size + i⟩ := by
    rw [getElem?_freshCells, if_pos hlt]
  rw [setCaptured_eq hm.code hfresh]
  constructor
  case grown =>
    exact ⟨hm.grown.tables, hm.grown.threads, hm.grown.metatables, hm.grown.functions,
      hm.grown.cells.setIfInBounds (Nat.le_add_right _ _), hm.grown.userdata⟩
  case code => exact hm.code
  case room =>
    rw [setCell, Array.size_setIfInBounds]
    exact hm.room
  case value =>
    intro j hj d hd
    by_cases hij : j = i
    · -- this is where what the loader put there goes
      subst hij
      cases hc.symm.trans hd
      have hroom := hm.room
      rw [cell_setCell_self (by dsimp only; omega)]
      exact hw.mono (.refl _)
    · rw [cell_setCell_of_ne (by rw [ne_eq, CellRef.mk.injEq]; omega)]
      exact (hm.value j (by omega) d hd).mono (.refl _)

theorem step (hf : h.HasGuest f proto captured) (hm : h.CopiedUpTo proto captured i m)
    (hi : m.captured? f i = some v) : h.CopiedUpTo proto captured (i + 1)
      ((m.throughHost v).2.setCaptured h.nextFunction i (m.throughHost v).1) := by
  obtain ⟨c, hc, hv⟩ := (captured?_eq_some_iff (hm.grown.functions _ _ hf.function)).1 hi
  have hmem : c ∈ captured := Array.mem_of_getElem? hc
  -- no round assigns to a variable of the function, so the loop reads what was there at first
  rw [cell_eq_of_persists hm.grown.cells (hf.cell c hmem)] at hv
  subst hv
  have hvalue := handedOver_throughHost hm.grown.userdata (hf.userdatum c hmem)
  obtain ⟨more, hmore⟩ := throughHost_snd m (h.cell c)
  rw [hmore] at hvalue ⊢
  exact (hm.append_userdata more).setCaptured hc hvalue

/-- The loop ends behind the last variable. -/
theorem copyCaptured (hf : h.HasGuest f proto captured) (hm : h.CopiedUpTo proto captured i m) :
    h.CopiedUpTo proto captured captured.size (m.copyCaptured f h.nextFunction i) := by
  fun_induction Heap.copyCaptured m f h.nextFunction i with
  | case1 m i v hi ih => exact ih (hm.step hf hi)
  | case2 m i hi =>
    rw [captured?, captures_eq (hm.grown.functions _ _ hf.function), Option.map_eq_none_iff,
      Array.getElem?_eq_none_iff] at hi
    exact { hm with value := fun j hj => hm.value j (hj.trans_le hi) }

end CopiedUpTo

/-- A copy of a guest function: a new function with the same code and variables of its own, which hold
what the function's variables held. -/
structure CopyOf (h : Heap) (f : FunctionRef) (proto : Proto) (captured : Array CellRef)
    (copy : FunctionRef) (after : Heap) : Prop where
  new : h.functions[copy.index]? = none
  code : ∃ cells, after.functions[copy.index]? = some (.guest proto cells) ∧
    cells.size = captured.size ∧ cells.toList.Nodup ∧
    ∀ c ∈ cells, h.cells[c.index]? = none ∧ c.index < after.cells.size
  value : ∀ i v, h.captured? f i = some v →
    ∃ w, after.captured? copy i = some w ∧ h.HandedOver after v w

theorem tables_copyCaptured : (h.copyCaptured f copy i).tables = h.tables := by
  fun_induction copyCaptured h f copy i with
  | case1 h i v _ ih =>
    obtain ⟨more, hmore⟩ := throughHost_snd h v
    rw [ih, setCaptured, hmore]
    split <;> rfl
  | case2 => rfl

theorem tables_duplicate : (h.duplicate globals f).2.tables = h.tables := by
  rw [duplicate]
  split
  · next proto captured _ =>
    rw [loadCode_eq]
    exact tables_copyCaptured
  · rfl

theorem duplicate_eq (hf : h.functions[f.index]? = some (.guest proto captured)) :
    h.duplicate globals f = (h.nextFunction,
      (h.loadCode globals proto captured.size).2.copyCaptured f h.nextFunction 0) := by
  have hnext : (h.loadCode globals proto captured.size).1 = h.nextFunction := by rw [loadCode_eq]
  rw [duplicate, function_eq hf, ← hnext]

theorem copyOf_duplicate (hf : h.HasGuest f proto captured) (globals : TableRef) :
    h.CopyOf f proto captured (h.duplicate globals f).1 (h.duplicate globals f).2 ∧
      h.Extends (h.duplicate globals f).2 := by
  have hcopied := (copiedUpTo_loadCode h globals proto captured).copyCaptured hf
  rw [duplicate_eq hf.function]
  refine ⟨⟨?new, ⟨_, hcopied.code, ?size, ?nodup, ?own⟩, ?value⟩, hcopied.grown⟩
  case new => exact Array.getElem?_eq_none (Nat.le_refl _)
  case size => rw [List.size_toArray, length_freshCells]
  case nodup =>
    exact List.Nodup.map (fun _ _ heq => CellRef.mk.inj heq) List.nodup_range'
  case own =>
    intro c hc
    have hroom := hcopied.room
    obtain ⟨i, hi, rfl⟩ := List.mem_map.1 (List.mem_toArray.1 hc)
    rw [List.mem_range'_1] at hi
    exact ⟨Array.getElem?_eq_none hi.1, by dsimp only; omega⟩
  case value =>
    intro i v hv
    obtain ⟨c, hc, rfl⟩ := (captured?_eq_some_iff hf.function).1 hv
    have hlt : i < captured.size := (Array.getElem?_eq_some_iff.1 hc).1
    refine ⟨_, (captured?_eq_some_iff hcopied.code).2 ⟨_, ?_, rfl⟩, hcopied.value i hlt c hc⟩
    rw [getElem?_freshCells, if_pos hlt]

end Guest.Heap

end Grapnel
