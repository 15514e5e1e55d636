import Grapnel.Proofs.Script.Copying
import Mathlib

namespace Grapnel

open Guest

variable {hooked replacement : FunctionRef} {globals : TableRef}

namespace Guest.Key

instance : Std.TransCmp order := by
  unfold order
  infer_instance

theorem eq_of_order {k l : Key} (h : order k l = .eq) : k = l := by
  simp only [order, compareLex_eq_eq, compareOn, Std.compare_eq_iff_eq] at h
  obtain ⟨hkind, hnumber, hbytes⟩ := h
  cases k <;> cases l <;> try cases hkind
  case boolean.boolean a b =>
    cases a <;> cases b <;> first | rfl | cases hnumber
  case integer.integer => rw [Int64.toInt_inj.1 hnumber]
  case float.float => rw [UInt64.toNat_inj.1 (Int.ofNat.inj hnumber)]
  case string.string => rw [ByteArray.ext (Array.toList_inj.1 hbytes)]
  case table.table s t =>
    cases s
    cases t
    cases hnumber
    rfl
  case function.function f g =>
    cases f
    cases g
    cases hnumber
    rfl
  case thread.thread s t =>
    cases s
    cases t
    cases hnumber
    rfl
  case userdata.userdata u v =>
    cases u
    cases v
    cases hnumber
    rfl

instance : Std.LawfulEqCmp order where
  eq_of_compare := eq_of_order

end Guest.Key

namespace Guest.Table

variable {t : Table} {k l : Key}

theorem get_empty : Table.empty.get k = .nil := Std.TreeMap.getD_emptyc

theorem get_set {v : Value} : (t.set k v).get l = if k = l then v else t.get l := by
  simp only [get, set, Std.TreeMap.getD_insert, Std.LawfulEqCmp.compare_eq_iff_eq]

theorem get_rebind : (t.rebind hooked replacement).get k =
    if t.get k = .function hooked then .function replacement else t.get k := by
  rw [get, rebind, Std.TreeMap.getD_map, get, Std.TreeMap.getD_eq_getD_getElem?]
  cases t.entries[k]? <;> rfl

theorem mem_tables {r : TableRef} : r ∈ t.tables ↔ ∃ k, t.get k = .table r := by
  simp only [tables, List.mem_filterMap, Prod.exists, Std.TreeMap.mem_toList_iff_getElem?_eq_some,
    get, Std.TreeMap.getD_eq_getD_getElem?]
  constructor
  · rintro ⟨k, v, hv, hr⟩
    refine ⟨k, ?_⟩
    rw [hv, Option.getD_some]
    split at hr
    · cases hr
      rfl
    · cases hr
  · rintro ⟨k, hk⟩
    rcases hv : t.entries[k]? with _ | v
    · rw [hv] at hk
      cases hk
    · rw [hv] at hk
      cases hk
      exact ⟨k, _, hv, rfl⟩

end Guest.Table

namespace Guest.Heap

variable {h m after : Heap} {t : TableRef} {k : Key} {searched more : TableRef → Prop}

/-- The tables of a heap with a function replaced in all slots of some of them. -/
structure Rebound (h : Heap) (hooked replacement : FunctionRef) (searched : TableRef → Prop)
    (after : Heap) : Prop where
  replaced : ∀ t k, searched t → (h.table t).get k = .function hooked →
    (after.table t).get k = .function replacement
  kept : ∀ t k, ¬ (searched t ∧ (h.table t).get k = .function hooked) →
    (after.table t).get k = (h.table t).get k
  metatable : ∀ t, (after.table t).metatable = (h.table t).metatable

namespace Rebound

theorem none (h : Heap) : h.Rebound hooked replacement (fun _ => False) h where
  replaced _ _ hnone _ := hnone.elim
  kept _ _ _ := rfl
  metatable _ := rfl

theorem trans (hm : h.Rebound hooked replacement searched m)
    (hafter : m.Rebound hooked replacement more after) :
    h.Rebound hooked replacement (fun t => searched t ∨ more t) after where
  replaced t k ht hk := by
    by_cases hfirst : searched t
    · have hslot := hm.replaced t k hfirst hk
      by_cases hagain : more t ∧ (m.table t).get k = .function hooked
      · exact hafter.replaced t k hagain.1 hagain.2
      · rw [hafter.kept t k hagain, hslot]
    · have hslot := hm.kept t k fun hboth => hfirst hboth.1
      exact hafter.replaced t k (ht.resolve_left hfirst) (hslot.trans hk)
  kept t k hother := by
    have hslot := hm.kept t k fun hboth => hother ⟨.inl hboth.1, hboth.2⟩
    rw [hafter.kept t k fun hboth => hother ⟨.inr hboth.1, hslot.symm.trans hboth.2⟩, hslot]
  metatable t := (hafter.metatable t).trans (hm.metatable t)

theorem congr (hafter : h.Rebound hooked replacement searched after)
    (hsame : ∀ t, searched t ↔ more t) : h.Rebound hooked replacement more after :=
  (funext fun t => propext (hsame t) : searched = more) ▸ hafter

theorem get_eq_table_iff {r : TableRef} (hafter : h.Rebound hooked replacement searched after) :
    (after.table t).get k = .table r ↔ (h.table t).get k = .table r := by
  by_cases hslot : searched t ∧ (h.table t).get k = .function hooked
  · rw [hafter.replaced t k hslot.1 hslot.2, hslot.2]
    constructor <;> intro hother <;> cases hother
  · rw [hafter.kept t k hslot]

end Rebound

theorem table_updateTable {f : Table → Table} {u : TableRef} : (h.updateTable t f).table u =
    if u = t ∧ t.index < h.tables.size then f (h.table u) else h.table u := by
  obtain ⟨i⟩ := t
  obtain ⟨j⟩ := u
  simp only [table, updateTable, Array.getD_eq_getD_getElem?, Array.getElem?_modify,
    TableRef.mk.injEq, eq_comm (a := j)]
  by_cases hij : i = j
  · subst hij
    by_cases hi : i < h.tables.size
    · simp only [Array.getElem?_eq_getElem hi, hi, and_self, if_true, Option.map_some,
        Option.getD_some]
    · simp only [Array.getElem?_eq_none (Nat.not_lt.1 hi), hi, and_false, if_true, if_false,
        Option.map_none]
  · simp only [hij, false_and, if_false]

theorem lt_size_of_get {f : FunctionRef} (hk : (h.table t).get k = .function f) :
    t.index < h.tables.size := by
  by_contra hi
  rw [table, Array.getD_eq_getD_getElem?, Array.getElem?_eq_none (Nat.not_lt.1 hi), Option.getD_none,
    Table.get_empty] at hk
  cases hk

theorem rebound_updateTable (h : Heap) (t : TableRef) :
    h.Rebound hooked replacement (· = t) (h.updateTable t (·.rebind hooked replacement)) := by
  constructor
  case replaced =>
    rintro _ k rfl hk
    rw [table_updateTable, if_pos ⟨rfl, lt_size_of_get hk⟩, Table.get_rebind, if_pos hk]
  case kept =>
    intro u k hother
    rw [table_updateTable]
    split
    · next hthis => rw [Table.get_rebind, if_neg fun hk => hother ⟨hthis.1, hk⟩]
    · rfl
  case metatable =>
    intro u
    rw [table_updateTable]
    split <;> rfl

theorem rebound_foldl (h : Heap) (ts : List TableRef) : h.Rebound hooked replacement (· ∈ ts)
    (ts.foldl (fun h t => h.updateTable t (·.rebind hooked replacement)) h) := by
  induction ts generalizing h with
  | nil => exact (Rebound.none h).congr fun t => (iff_false_intro List.not_mem_nil).symm
  | cons t ts ih => exact ((rebound_updateTable h t).trans (ih _)).congr fun u => List.mem_cons.symm

/-- The globals, or a table stored directly in them: where a hook looks for the hooked function. -/
def Searched (h : Heap) (globals t : TableRef) : Prop :=
  t = globals ∨ ∃ k, (h.table globals).get k = .table t

theorem rebound_rebind (h : Heap) (globals : TableRef) (hooked replacement : FunctionRef) :
    h.Rebound hooked replacement (h.Searched globals) (h.rebind globals hooked replacement) := by
  have hglobals : h.Rebound hooked replacement (· = globals)
      (h.updateTable globals (·.rebind hooked replacement)) := rebound_updateTable h globals
  refine (hglobals.trans (rebound_foldl _ _)).congr fun t => ?_
  rw [List.mem_filter, Table.mem_tables, decide_eq_true_eq, Searched]
  simp only [hglobals.get_eq_table_iff]
  tauto

/-- A heap with the same tables is searched and changed in the same way. -/
theorem Rebound.of_tables (hafter : m.Rebound hooked replacement (m.Searched globals) after)
    (hsame : m.tables = h.tables) : h.Rebound hooked replacement (h.Searched globals) after := by
  have htable (t : TableRef) : m.table t = h.table t := by rw [table, hsame, table]
  have hsearched (t : TableRef) : m.Searched globals t ↔ h.Searched globals t := by
    rw [Searched, htable, Searched]
  constructor
  case replaced =>
    intro t k ht hk
    rw [← htable] at hk
    exact hafter.replaced t k ((hsearched t).2 ht) hk
  case kept =>
    intro t k hother
    rw [← htable, ← hsearched] at hother
    rw [hafter.kept t k hother, htable]
  case metatable => exact fun t => (hafter.metatable t).trans (by rw [htable])

end Guest.Heap

namespace ClosureRegistry

variable {h : Heap}

theorem heap_hook (r : ClosureRegistry) : (r.hook h globals hooked replacement).2.1 =
    (h.duplicate globals hooked).2.rebind globals hooked replacement := by
  rw [hook]

theorem rebound_hook (r : ClosureRegistry) (h : Heap) (globals : TableRef)
    (hooked replacement : FunctionRef) : h.Rebound hooked replacement (h.Searched globals)
      (r.hook h globals hooked replacement).2.1 := by
  rw [heap_hook]
  exact (Heap.rebound_rebind _ globals hooked replacement).of_tables Heap.tables_duplicate

/-- A hook puts the replacement into every slot of the searched tables that held the hooked function,
so that none of them holds it any more, and changes no other slot of any table, and no metatable.
The tables that it searches are the same when it is done. -/
theorem hook_rebinds_exactly (r : ClosureRegistry) (h : Heap) (globals : TableRef)
    (hne : hooked ≠ replacement) :
    (∀ t k, h.Searched globals t → (h.table t).get k = .function hooked →
      ((r.hook h globals hooked replacement).2.1.table t).get k = .function replacement) ∧
    (∀ t k, h.Searched globals t →
      ((r.hook h globals hooked replacement).2.1.table t).get k ≠ .function hooked) ∧
    (∀ t k, ¬ (h.Searched globals t ∧ (h.table t).get k = .function hooked) →
      ((r.hook h globals hooked replacement).2.1.table t).get k = (h.table t).get k) ∧
    (∀ t, ((r.hook h globals hooked replacement).2.1.table t).metatable = (h.table t).metatable) ∧
    ∀ t, (r.hook h globals hooked replacement).2.1.Searched globals t ↔ h.Searched globals t := by
  have hhook := rebound_hook r h globals hooked replacement
  refine ⟨hhook.replaced, ?none, hhook.kept, hhook.metatable, ?same⟩
  case none =>
    intro t k ht hk
    by_cases hslot : (h.table t).get k = .function hooked
    · rw [hhook.replaced t k ht hslot, Value.function.injEq] at hk
      exact hne hk.symm
    · rw [hhook.kept t k fun hboth => hslot hboth.2] at hk
      exact hslot hk
  case same =>
    intro t
    simp only [Heap.Searched, hhook.get_eq_table_iff]

/-- A table that holds the first function. -/
def holder : Table := Table.empty.set (.integer 0) (.function ⟨0⟩)

/-- Globals that hold themselves and, twice, a table in which there is another one; the last table is
the metatable of the first two. All of them hold the first of two functions. -/
def tangled : Heap :=
  { Heap.empty with
    functions := Array.replicate 2 (.guest default #[])
    tables := #[
      { ((holder.set (.integer 1) (.table ⟨0⟩)).set (.integer 2) (.table ⟨1⟩)).set (.integer 3)
          (.table ⟨1⟩) with metatable := some ⟨3⟩ },
      { holder.set (.integer 1) (.table ⟨2⟩) with metatable := some ⟨3⟩ }, holder, holder] }

theorem hook_rebinds_exactly_tangled :
    (⟨0⟩ : FunctionRef) ≠ ⟨1⟩ ∧
    ((empty.hook tangled ⟨0⟩ ⟨0⟩ ⟨1⟩).2.1.table ⟨0⟩).get (.integer 0) = .function ⟨1⟩ ∧
    ((empty.hook tangled ⟨0⟩ ⟨0⟩ ⟨1⟩).2.1.table ⟨1⟩).get (.integer 0) = .function ⟨1⟩ ∧
    ((empty.hook tangled ⟨0⟩ ⟨0⟩ ⟨1⟩).2.1.table ⟨2⟩).get (.integer 0) = .function ⟨0⟩ ∧
    ((empty.hook tangled ⟨0⟩ ⟨0⟩ ⟨1⟩).2.1.table ⟨3⟩).get (.integer 0) = .function ⟨0⟩ ∧
    ((empty.hook tangled ⟨0⟩ ⟨0⟩ ⟨1⟩).2.1.table ⟨0⟩).get (.integer 1) = .table ⟨0⟩ := by
  have hne : (⟨0⟩ : FunctionRef) ≠ ⟨1⟩ := by decide
  have hheld : ∀ i < 4, (tangled.table ⟨i⟩).get (.integer 0) = .function ⟨0⟩ := by
    intro i hi
    interval_cases i <;> change Table.get (Table.set _ _ _) _ = _ <;> simp [holder, Table.get_set]
  have hglobals (k : Key) : (tangled.table ⟨0⟩).get k =
      if .integer 3 = k then .table ⟨1⟩ else if .integer 2 = k then .table ⟨1⟩ else
        if .integer 1 = k then .table ⟨0⟩ else if .integer 0 = k then .function ⟨0⟩ else .nil := by
    change (Table.set _ _ _).get k = _
    simp only [Table.get_set, holder, Table.get_empty]
  have hsearched (t : TableRef) : tangled.Searched ⟨0⟩ t ↔ t = ⟨0⟩ ∨ t = ⟨1⟩ := by
    constructor
    · rintro (rfl | ⟨k, hk⟩)
      · exact .inl rfl
      · rw [hglobals] at hk
        split_ifs at hk <;> cases hk <;> simp
    · rintro (rfl | rfl)
      · exact .inl rfl
      · exact .inr ⟨.integer 2, by rw [hglobals, if_neg (by decide), if_pos rfl]⟩
  have hother {t : TableRef} (h0 : t ≠ ⟨0⟩) (h1 : t ≠ ⟨1⟩) : ¬ tangled.Searched ⟨0⟩ t :=
    fun ht => ((hsearched t).1 ht).elim h0 h1
  obtain ⟨hreplaced, _, hkept, _⟩ := hook_rebinds_exactly empty tangled ⟨0⟩ hne
  refine ⟨hne, hreplaced _ _ (.inl rfl) (hheld 0 (by decide)),
    hreplaced _ _ ((hsearched _).2 (.inr rfl)) (hheld 1 (by decide)), ?deeper, ?metatable, ?itself⟩
  case deeper =>
    rw [hkept _ _ fun hboth => hother (by decide) (by decide) hboth.1, hheld 2 (by decide)]
  case metatable =>
    rw [hkept _ _ fun hboth => hother (by decide) (by decide) hboth.1, hheld 3 (by decide)]
  case itself =>
    have hself : (tangled.table ⟨0⟩).get (.integer 1) = .table ⟨0⟩ := by
      rw [hglobals, if_neg (by decide), if_neg (by decide), if_pos rfl]
    rw [hkept _ _ fun hboth => Value.noConfusion (hself.symm.trans hboth.2), hself]

end ClosureRegistry

end Grapnel
