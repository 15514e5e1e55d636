import Grapnel.Proofs.FileTree.Walk

namespace Grapnel

open Node

namespace FileTree

/-- A path to a node without links on the way. -/
inductive Canonical (files : Node) (fits : List String → Bool) : List String → Prop where
  | root : Canonical files fits []
  | child : Canonical files fits p → s ≠ ".." → Fits fits p s →
      files.at? (p ++ [s]) = some n → ¬ n.IsLink → Canonical files fits (p ++ [s])

/-- No name among the steps leads up. -/
def Plain (xs : List Path.Step) : Prop := ∀ s, .name s ∈ xs → s ≠ ".."

variable {files n : Node} {fits fits' : List String → Bool} {k u : Nat} {f : Bool}
  {here l r base m names p q : List String} {xs ys : List Path.Step} {s : String} {place : Place}

theorem Plain.tail (h : Plain (x :: xs)) : Plain xs :=
  fun s hs => h s (List.mem_cons_of_mem _ hs)

theorem Plain.append (h : Plain xs) (h' : Plain ys) : Plain (xs ++ ys) :=
  fun s hs => (List.mem_append.1 hs).elim (h s) (h' s)

theorem plain_map (names : List String) : Plain (names.map Path.stepOf) := by
  intro s hs
  obtain ⟨t, _, ht⟩ := List.mem_map.1 hs
  rw [Path.stepOf] at ht
  split at ht
  · cases ht
  · next h =>
    cases ht
    exact h

theorem plain_steps (path : String) : Plain (Path.steps path) := by
  rw [Path.steps]
  split
  · exact fun s hs => plain_map _ s ((List.mem_cons.1 hs).resolve_left nofun)
  · exact plain_map _

theorem plain_linkSteps (target : String) : Plain (Path.linkSteps target) := by
  rw [Path.linkSteps]
  split
  · exact (plain_steps target).append fun s hs => nomatch List.mem_singleton.1 hs
  · exact plain_steps target

theorem stepOf_name (h : s ≠ "..") : Path.stepOf s = .name s := if_neg h

theorem map_stepOf (h : ".." ∉ names) : names.map Path.stepOf = names.map .name :=
  List.map_congr_left fun _ hs => stepOf_name fun hd => h (hd ▸ hs)

theorem map_stepOf_concat (h : s ≠ "..") :
    (l ++ [s]).map Path.stepOf = l.map Path.stepOf ++ [.name s] := by
  rw [List.map_append, List.map_singleton, stepOf_name h]

theorem last_ne_parent (h : ".." ∉ l ++ [s]) : s ≠ ".." :=
  fun hs => h (List.mem_append_right _ (List.mem_singleton.2 hs.symm))

theorem hasNul_append : hasNul (l ++ r) = false ↔ hasNul l = false ∧ hasNul r = false := by
  rw [hasNul, List.any_append, Bool.or_eq_false_iff]
  rfl

theorem hasNul_above (h : hasNul names = false) (hp : m <+: names) : hasNul m = false := by
  obtain ⟨r, rfl⟩ := hp
  exact (hasNul_append.1 h).1

theorem Canonical.dropLast (h : Canonical files fits p) : Canonical files fits p.dropLast := by
  cases h with
  | root => exact .root
  | child h => rwa [List.dropLast_concat]

theorem Canonical.no_parent (h : Canonical files fits p) : ".." ∉ p := by
  induction h with
  | root => exact List.not_mem_nil
  | child _ hs _ _ _ ih =>
    intro hm
    rcases List.mem_append.1 hm with hm | hm
    · exact ih hm
    · exact hs (List.mem_singleton.1 hm).symm

theorem Canonical.last (h : Canonical files fits (p ++ [s])) :
    Fits fits p s ∧ ∃ n, files.at? (p ++ [s]) = some n ∧ ¬ n.IsLink := by
  generalize hq : p ++ [s] = q at h
  cases h with
  | root => exact absurd hq (by simp)
  | child _ _ hf hs hl =>
    obtain ⟨rfl, hst⟩ := List.append_inj' hq rfl
    cases hst
    exact ⟨hf, _, hs, hl⟩

theorem Canonical.exists_node (h : Canonical files fits p) :
    ∃ n, files.at? p = some n ∧ (p = [] ∨ ¬ n.IsLink) := by
  cases h with
  | root => exact ⟨files, rfl, .inl rfl⟩
  | child _ _ _ hs hl => exact ⟨_, hs, .inr hl⟩

theorem Canonical.above (h : Canonical files fits q) (hp : p <+: q) :
    Canonical files fits p := by
  induction h with
  | root => exact List.prefix_nil.1 hp ▸ .root
  | child h hs hf ha hl ih =>
    rcases List.prefix_concat_iff.1 hp with rfl | hp
    · exact .child h hs hf ha hl
    · exact ih hp

theorem Walks.canonical (h : Walks files fits k here xs u p) (hp : Plain xs)
    (hc : Canonical files fits here) : Canonical files fits p := by
  induction h with
  | stop => exact hc
  | root _ ih => exact ih hp.tail .root
  | up _ _ ih => exact ih hp.tail hc.dropLast
  | stay _ _ ih => exact ih hp.tail hc
  | enter hf hs hl _ ih => exact ih hp.tail (.child hc (hp _ List.mem_cons_self) hf hs hl)
  | follow _ _ _ ih => exact ih ((plain_linkSteps _).append hp.tail) hc

theorem Canonical.walks (h : Canonical files fits p) (hf : ∀ q, fits q = true → fits' q = true)
    (k : Nat) : Walks files fits' k [] (p.map Path.stepOf) k p := by
  induction h with
  | root => exact .stop
  | child _ hs ht ha hl ih =>
    rw [map_stepOf_concat hs]
    exact ih.append (.enter ⟨ht.name, hf _ ht.path⟩ ha hl .stop)

theorem Canonical.walkFrom (h : Canonical files fits p) (hf : ∀ q, fits q = true → fits' q = true)
    (k : Nat) (f : Bool) :
    FileTree.walkFrom files fits' k [] f (p.map Path.stepOf) = .ok ⟨p, files.at? p⟩ := by
  cases h with
  | root => rw [List.map_nil, FileTree.walkFrom]
  | child hc hs ht ha hl =>
    rw [map_stepOf_concat hs, (hc.walks hf k).walkFrom (.inr (List.cons_ne_nil _ _)),
      walkFrom_enter ⟨ht.name, hf _ ht.path⟩ ha hl, FileTree.walkFrom]

theorem canonicalize_ok_iff : canonicalize files l = .ok base ↔ hasNul l = false ∧
    ∃ u, Walks files isShort maxLinks [] (l.map Path.stepOf) u base := by
  rw [canonicalize]
  constructor
  · intro h
    split at h
    · cases h
    · next hn =>
      refine ⟨eq_false_of_ne_true hn, ?_⟩
      split at h
      · next hw => cases h; exact (walkFrom_some hw).1
      · cases h
      · cases h
  · rintro ⟨hn, u, hw⟩
    obtain ⟨n, hx⟩ := hw.exists_node ⟨files, rfl⟩
    rw [hn, hw.ends, hx]
    rfl

theorem canonical_of_canonicalize (h : canonicalize files l = .ok base) :
    Canonical files isShort base := by
  obtain ⟨_, u, hw⟩ := canonicalize_ok_iff.1 h
  exact hw.canonical (plain_map l) .root

/-- What was made canonical stays as it is. -/
theorem canonicalize_canonical (h : canonicalize files l = .ok base) (hn : hasNul base = false) :
    canonicalize files base = .ok base :=
  canonicalize_ok_iff.2
    ⟨hn, maxLinks, (canonical_of_canonicalize h).walks (fun _ h => h) maxLinks⟩

/-- A name after a canonical part that cannot be made canonical denotes nothing but a link. -/
theorem link_of_not_canonical (h : canonicalize files l = .ok base) (hx : s ≠ "..")
    (he : ∀ names, canonicalize files (l ++ [s]) ≠ .ok names) (hn : hasNul [s] = false)
    (hf : Fits isShort base s) (hs : files.at? (base ++ [s]) = some n) : n.IsLink := by
  obtain ⟨hl, u, hw⟩ := canonicalize_ok_iff.1 h
  by_contra hlink
  refine he (base ++ [s]) (canonicalize_ok_iff.2 ⟨hasNul_append.2 ⟨hl, hn⟩, u, ?_⟩)
  rw [map_stepOf_concat hx]
  exact hw.append (.enter hf hs hlink .stop)

end FileTree

end Grapnel
