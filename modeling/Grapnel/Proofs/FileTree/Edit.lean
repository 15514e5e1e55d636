import Grapnel.FileTree.Basic
import Mathlib

namespace Grapnel

namespace Node

/-- The node without its entries. -/
def shape : Node → Node
  | .directory _ => .directory []
  | n => n

/-- The node without its entries or its content. -/
def kind : Node → Node
  | .file _ => .file []
  | n => n.shape

def IsLink : Node → Prop
  | .link _ => True
  | _ => False

variable {n v m : Node} {value : Option Node} {p q : List String} {s t : String}
  {entries : List (String × Node)}

theorem at?_append (n : Node) (p q : List String) : n.at? (p ++ q) = (n.at? p).bind (at? q) := by
  induction p generalizing n with
  | nil => rfl
  | cons s p ih =>
    rw [List.cons_append, at?, at?, Option.bind_assoc]
    exact congrArg _ (funext ih)

theorem at?_snoc (n : Node) (p : List String) (s : String) :
    n.at? (p ++ [s]) = (n.at? p).bind (child? s) := by
  rw [at?_append]
  refine congrArg _ (funext fun m => ?_)
  rw [at?]
  exact Option.bind_fun_some _

theorem at?_directory (h : n.at? p = some (.directory entries)) :
    n.at? (p ++ [s]) = entries.lookup s := by
  rw [at?_snoc, h]
  rfl

theorem directory_of_child (h : n.at? (p ++ [s]) = some m) :
    ∃ entries, n.at? p = some (.directory entries) ∧ entries.lookup s = some m := by
  rw [at?_snoc] at h
  obtain ⟨d, hd, hm⟩ := Option.bind_eq_some_iff.1 h
  cases d with
  | directory entries => exact ⟨entries, hd, hm⟩
  | file | link | socket => cases hm

theorem mem_of_lookup (h : entries.lookup s = some m) : (s, m) ∈ entries := by
  obtain ⟨l, r, rfl, -⟩ := List.lookup_eq_some_iff.1 h
  exact List.mem_append_right l List.mem_cons_self

theorem at?_above (h : n.at? q = some m) (hp : p <+: q) : ∃ m', n.at? p = some m' := by
  obtain ⟨r, rfl⟩ := hp
  rw [at?_append] at h
  obtain ⟨m', hm, _⟩ := Option.bind_eq_some_iff.1 h
  exact ⟨m', hm⟩

theorem shape_of_kind (h : m.kind = .directory []) : ∃ entries, m = .directory entries := by
  cases m with
  | directory entries => exact ⟨entries, rfl⟩
  | file | link | socket => cases h

theorem kind_shape (n : Node) : n.shape.kind = n.kind := by cases n <;> rfl

theorem kind_of_shape (h : m.shape = n.shape) : m.kind = n.kind := by
  rw [← kind_shape m, h, kind_shape]

theorem lookup_putEntry (s : String) (m : Node) (entries : List (String × Node)) :
    (putEntry s m entries).lookup s = some m := by
  induction entries with
  | nil => exact List.lookup_cons_self
  | cons e rest ih =>
    rw [putEntry]
    split
    · exact List.lookup_cons_self
    · next h => rw [List.lookup_cons, beq_false_of_ne (Ne.symm h), ih]

theorem lookup_putEntry_ne (m : Node) (entries : List (String × Node)) (h : t ≠ s) :
    (putEntry s m entries).lookup t = entries.lookup t := by
  induction entries with
  | nil => rw [putEntry, List.lookup_cons, beq_false_of_ne h]
  | cons e rest ih =>
    rw [putEntry]
    split
    · next ho => rw [List.lookup_cons, List.lookup_cons, ho, beq_false_of_ne h]
    · rw [List.lookup_cons, List.lookup_cons, ih]

theorem lookup_setEntry (s : String) (value : Option Node) (entries : List (String × Node)) :
    (setEntry s value entries).lookup s = value := by
  cases value with
  | none =>
    refine List.lookup_eq_none_iff.2 fun e he => ?_
    exact bne_iff_ne.2 (Ne.symm (of_decide_eq_true (List.mem_filter.1 he).2))
  | some m => exact lookup_putEntry s m entries

theorem lookup_setEntry_ne (value : Option Node) (entries : List (String × Node)) (h : t ≠ s) :
    (setEntry s value entries).lookup t = entries.lookup t := by
  cases value with
  | none =>
    induction entries with
    | nil => rfl
    | cons e rest ih =>
      rw [setEntry, List.filter_cons]
      split
      · rw [List.lookup_cons, List.lookup_cons, ← ih]
        rfl
      · next he =>
        have ho : e.1 = s := of_not_not fun hn => he (decide_eq_true hn)
        rw [List.lookup_cons, ho, beq_false_of_ne h, ← ih]
        rfl
  | some m => exact lookup_putEntry_ne m entries h

theorem setEntry_new (v : Node) (h : s ∉ entries.map (·.1)) :
    setEntry s (some v) entries = entries ++ [(s, v)] := by
  change putEntry s v entries = _
  induction entries with
  | nil => rfl
  | cons e rest ih =>
    rw [List.map_cons, List.mem_cons, not_or] at h
    rw [putEntry, if_neg (Ne.symm h.1), ih h.2]
    rfl

/-- A change goes on below the name that it goes through, and nothing happens elsewhere. -/
theorem at?_set_cons (rest : List String) (value : Option Node) (entries : List (String × Node))
    (t : String) (q : List String) :
    ((Node.directory entries).set (s :: rest) value).at? (t :: q) =
      if t = s then
        if rest = [] then value.bind (at? q)
        else (entries.lookup s).bind fun m => (m.set rest value).at? q
      else (Node.directory entries).at? (t :: q) := by
  have hset (v : Option Node) : (Node.directory (setEntry s v entries)).at? (t :: q) =
      if t = s then v.bind (at? q) else (Node.directory entries).at? (t :: q) := by
    rw [at?, child?]
    split
    · next h => rw [h, lookup_setEntry]
    · next h => rw [lookup_setEntry_ne v entries h]; rfl
  cases rest with
  | nil => exact hset value
  | cons u rest =>
    rw [if_neg (List.cons_ne_nil u rest), set]
    cases hl : entries.lookup s with
    | some m => exact hset (some (m.set (u :: rest) value))
    | none =>
      change (Node.directory entries).at? (t :: q) = _
      split
      · next h => rw [h, at?, child?, hl]; rfl
      · rfl

theorem at?_set_apart (hp : ¬ p <+: q) (hq : ¬ q <+: p) : (n.set p value).at? q = n.at? q := by
  induction p generalizing n q with
  | nil => exact absurd List.nil_prefix hp
  | cons s rest ih =>
    cases n with
    | directory entries =>
      cases q with
      | nil => exact absurd List.nil_prefix hq
      | cons t q =>
        rw [at?_set_cons]
        split
        · next h =>
          subst h
          rw [List.cons_prefix_cons, not_and] at hp hq
          rw [if_neg fun h : rest = [] => hp rfl (h ▸ List.nil_prefix), at?, child?]
          exact congrArg _ (funext fun m => ih (hp rfl) (hq rfl))
        · rfl
    | file | link | socket => rfl

/-- Changing a node changes nothing that is not below it. -/
theorem shape_set (hp : ¬ p <+: q) : ((n.set p value).at? q).map shape = (n.at? q).map shape := by
  induction p generalizing n q with
  | nil => exact absurd List.nil_prefix hp
  | cons s rest ih =>
    cases n with
    | directory entries =>
      cases q with
      | nil =>
        rw [at?, at?]
        cases rest with
        | nil => rfl
        | cons =>
          rw [set]
          split <;> rfl
      | cons t q =>
        rw [at?_set_cons]
        split
        · next h =>
          subst h
          rw [List.cons_prefix_cons, not_and] at hp
          rw [if_neg fun h : rest = [] => hp rfl (h ▸ List.nil_prefix), at?, child?,
            Option.map_bind, Option.map_bind]
          exact congrArg _ (funext fun m => ih (hp rfl))
        · rfl
    | file | link | socket => rfl

theorem set_parent (value : Option Node) (h : n.at? p = some (.directory entries)) :
    (n.set (p ++ [s]) value).at? p = some (.directory (setEntry s value entries)) := by
  induction p generalizing n with
  | nil =>
    cases h
    rfl
  | cons t p ih =>
    cases n with
    | directory es =>
      obtain ⟨m, hm, hp⟩ := Option.bind_eq_some_iff.1 h
      have hr : p ++ [s] ≠ [] := List.append_ne_nil_of_right_ne_nil _ (List.cons_ne_nil _ _)
      rw [List.cons_append, at?_set_cons, if_pos rfl, if_neg hr, show es.lookup t = some m from hm]
      exact ih hp
    | file | link | socket => cases h

theorem at?_set_self (value : Option Node) (h : n.at? p = some (.directory entries)) :
    (n.set (p ++ [s]) value).at? (p ++ [s]) = value := by
  rw [at?_directory (set_parent value h), lookup_setEntry]

theorem at?_set_some (v : Node) (h : n.at? p = some m) : (n.set p (some v)).at? p = some v := by
  rcases List.eq_nil_or_concat' p with rfl | ⟨d, s, rfl⟩
  · rfl
  · obtain ⟨entries, hd, _⟩ := directory_of_child h
    exact at?_set_self _ hd

theorem putEntry_same (h : entries.lookup s = some m) : putEntry s m entries = entries := by
  induction entries with
  | nil => cases h
  | cons e rest ih =>
    obtain ⟨other, v⟩ := e
    rw [putEntry]
    split
    · next ho =>
      rw [ho, List.lookup_cons_self] at h
      cases h
      rw [ho]
    · next ho =>
      rw [List.lookup_cons, beq_false_of_ne (Ne.symm ho)] at h
      rw [ih h]

theorem set_same (h : n.at? p = some m) : n.set p (some m) = n := by
  induction p generalizing n with
  | nil =>
    cases h
    rfl
  | cons s p ih =>
    obtain ⟨v, hv, hp⟩ := Option.bind_eq_some_iff.1 h
    cases n with
    | directory entries =>
      have hl : entries.lookup s = some v := hv
      cases p with
      | nil =>
        cases hp
        rw [set, setEntry, putEntry_same hl]
      | cons t p =>
        rw [set, hl]
        change directory (putEntry s (v.set (t :: p) (some m)) entries) = _
        rw [ih hp, putEntry_same hl]
    | file | link | socket => cases hv

end Node

end Grapnel
