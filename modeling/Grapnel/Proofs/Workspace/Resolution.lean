import Grapnel.Workspace.Basic
import Grapnel.Proofs.FileTree.Canonical

namespace Grapnel

open Node FileTree

variable {files files' n : Node} {names l r base p m : List String} {s t x path : String}
  {w : Workspace} {place : Place} {f : Bool}

namespace Workspace

theorem applySteps_no_parent (h : ".." ∉ names) (hp : Plain xs) : ".." ∉ applySteps names xs := by
  induction xs generalizing names with
  | nil => exact h
  | cons x xs ih =>
    cases x with
    | root => exact ih List.not_mem_nil hp.tail
    | up => exact ih (fun hm => h (List.mem_of_mem_dropLast hm)) hp.tail
    | stay => exact ih h hp.tail
    | name s =>
      refine ih (fun hm => ?_) hp.tail
      rcases List.mem_append.1 hm with hm | hm
      · exact h hm
      · exact hp s List.mem_cons_self (List.mem_singleton.1 hm).symm

/-- The names are split where the longest canonical part ends. -/
structure Splits (files : Node) (names l r base : List String) : Prop where
  names : names = l ++ r
  canonical : canonicalize files l = .ok base
  longest : ∀ r', r' <+: r → r' ≠ [] → ∀ q, canonicalize files (l ++ r') ≠ .ok q

theorem canonicalPart_some (h : canonicalPart files names rest = some p) :
    ∃ l r base, Splits files names l r base ∧ p = base ++ (r ++ rest) := by
  induction names using List.reverseRecOn generalizing rest with
  | nil =>
    rw [canonicalPart] at h
    split at h
    · next hc =>
      cases h
      exact ⟨[], [], _, ⟨rfl, hc, fun r' hr hn => absurd (List.prefix_nil.1 hr) hn⟩, rfl⟩
    · cases h
  | append_singleton names s ih =>
    rw [canonicalPart] at h
    split at h
    · next hc =>
      cases h
      refine ⟨names ++ [s], [], _, ⟨(List.append_nil _).symm, hc, ?_⟩, rfl⟩
      exact fun r' hr hn => absurd (List.prefix_nil.1 hr) hn
    · next he =>
      rw [dif_neg (by simp), List.dropLast_concat, List.getLast_append_singleton] at h
      obtain ⟨l, r, base, ⟨hn, hc, hl⟩, hp⟩ := ih h
      refine ⟨l, r ++ [s], base, ⟨by rw [hn, List.append_assoc], hc, fun r' hr hne q hq => ?_⟩,
        by rw [hp, List.append_assoc]; rfl⟩
      rcases List.prefix_concat_iff.1 hr with rfl | hr
      · rw [← List.append_assoc, ← hn, he] at hq
        cases hq
      · exact hl r' hr hne q hq

theorem Splits.canonicalPart (h : Splits files names l r base) (rest : List String) :
    canonicalPart files names rest = some (base ++ (r ++ rest)) := by
  obtain ⟨rfl, hc, hl⟩ := h
  induction r using List.reverseRecOn generalizing rest with
  | nil => rw [List.append_nil, Workspace.canonicalPart, hc, List.nil_append]
  | append_singleton r s ih =>
    rw [← List.append_assoc, Workspace.canonicalPart]
    split
    · next hq =>
      rw [List.append_assoc] at hq
      exact absurd hq (hl (r ++ [s]) (List.prefix_refl _) (by simp) _)
    · rw [dif_neg (by simp), List.dropLast_concat, List.getLast_append_singleton,
        ih (s :: rest) fun r' hr => hl r' (hr.trans (List.prefix_append ..)), List.append_assoc]
      rfl

theorem resolve_eq_ok : w.resolve files path = .ok names ↔
    canonicalPart files (applySteps w.root (Path.steps path)) [] = some names ∧
      w.root <+: names := by
  rw [resolve]
  split
  · next h =>
    split
    · next hp =>
      rw [h, ← List.isPrefixOf_iff_prefix]
      constructor
      · intro he
        cases he
        exact ⟨rfl, hp⟩
      · rintro ⟨he, _⟩
        cases he
        rfl
    · next hp =>
      refine ⟨nofun, fun he => absurd he.2 ?_⟩
      rw [h] at he
      cases he.1
      rwa [← List.isPrefixOf_iff_prefix]
  · next h =>
    rw [h]
    exact ⟨nofun, fun he => nomatch he.1⟩

/-- The names begin with a canonical part, and what comes next is no link. -/
def Straight (files : Node) (base r : List String) : Prop :=
  ∀ x, [x] <+: r → ∀ n, files.at? (base ++ [x]) = some n → ¬ n.IsLink

/-- What is resolved has a canonical part below the root. -/
theorem resolve_ok (hroot : canonicalize files w.root = .ok w.root)
    (h : w.resolve files path = .ok names) : ∃ l r base,
      Splits files (applySteps w.root (Path.steps path)) l r base ∧ names = base ++ r ∧
      ".." ∉ l ++ r ∧ ".." ∉ names ∧ w.root <+: base := by
  obtain ⟨hc, hr⟩ := resolve_eq_ok.1 h
  obtain ⟨l, r, base, hs, rfl⟩ := canonicalPart_some hc
  rw [List.append_nil] at hr ⊢
  have hrc := canonical_of_canonicalize hroot
  have hbc := canonical_of_canonicalize hs.canonical
  have hlr : ".." ∉ l ++ r :=
    hs.names ▸ applySteps_no_parent hrc.no_parent (plain_steps path)
  have hrn : ".." ∉ r := fun hm => hlr (List.mem_append_right _ hm)
  refine ⟨l, r, base, hs, rfl, hlr, ?_, ?_⟩
  · exact fun hm => (List.mem_append.1 hm).elim hbc.no_parent hrn
  rcases List.prefix_or_prefix_of_prefix hr (List.prefix_append base r) with hp | ⟨d, hd⟩
  · exact hp
  -- The root is canonical, so that a base above it would have gone on.
  cases d with
  | nil => exact hd ▸ (List.append_nil base).symm ▸ List.prefix_refl _
  | cons x d =>
    have hx : [x] <+: r := by
      rw [← hd, List.prefix_append_right_inj] at hr
      exact (List.prefix_append [x] d).trans hr
    have hbx : base ++ [x] <+: w.root :=
      ⟨d, by rw [List.append_assoc]; exact hd⟩
    obtain ⟨hf, n, hn, hl⟩ := (hrc.above hbx).last
    have hnul := hasNul_above (canonicalize_ok_iff.1 hroot).1 hbx
    refine absurd (link_of_not_canonical hs.canonical ?_ ?_ (hasNul_append.1 hnul).2 hf hn) hl
    · exact fun hd => hrn (hx.subset (List.mem_singleton.2 hd.symm))
    · exact hs.longest [x] hx (List.cons_ne_nil _ _)

theorem Splits.walk_straight (h : Splits files names l r base) (hs : Straight files base r)
    (hlr : ".." ∉ l ++ r) (hm : m <+: base ++ r) (hn : hasNul m = false) (hsh : isShort m = true)
    (hw : walkFrom files (fun _ => true) maxLinks [] f (m.map Path.stepOf) = .ok place) :
    place.names = m ∧ (place.node = none → base <+: m) := by
  have hb := canonical_of_canonicalize h.canonical
  have hstay (hp : m <+: base) : place.names = m ∧ (place.node = none → base <+: m) := by
    have hc := hb.above hp
    rw [hc.walkFrom (fun _ _ => rfl) maxLinks f] at hw
    cases hw
    obtain ⟨n, hn, _⟩ := hc.exists_node
    exact ⟨rfl, fun h => nomatch hn.symm.trans h⟩
  rcases List.prefix_or_prefix_of_prefix hm (List.prefix_append base r) with hp | ⟨d, rfl⟩
  · exact hstay hp
  cases d with
  | nil => exact hstay ((List.append_nil base).symm ▸ List.prefix_refl _)
  | cons x d =>
    refine ⟨?_, fun _ => List.prefix_append ..⟩
    have hx : [x] <+: r :=
      (List.prefix_append [x] d).trans ((List.prefix_append_right_inj base).1 hm)
    have hxn : x ≠ ".." :=
      fun hd => hlr (List.mem_append_right _ (hx.subset (List.mem_singleton.2 hd.symm)))
    have hbx : base ++ [x] <+: base ++ x :: d := ⟨d, by rw [List.append_assoc]; rfl⟩
    rw [List.map_append, (hb.walks (fun _ _ => rfl) maxLinks).walkFrom
      (.inr (by simp)), List.map_cons, Path.stepOf, if_neg hxn] at hw
    by_cases hf : Fits (fun _ => true) base x
    · by_cases hdir : ∃ entries, files.at? base = some (.directory entries)
      · obtain ⟨entries, hdir⟩ := hdir
        cases ha : files.at? (base ++ [x]) with
        | none =>
          cases d with
          | nil =>
            rw [walkFrom_name hdir hf, ← at?_directory hdir, ha] at hw
            cases hw
            rfl
          | cons =>
            rw [walkFrom_missing hdir hf ha (by simp)] at hw
            cases hw
        | some n =>
          have hshort := isShort_above hsh hbx
          refine absurd (link_of_not_canonical h.canonical hxn ?_ ?_ ⟨hf.name, hshort⟩ ha)
            (hs x hx n ha)
          · exact h.longest [x] hx (List.cons_ne_nil _ _)
          · exact (hasNul_append.1 (hasNul_above hn hbx)).2
      · obtain ⟨e, he⟩ := walkFrom_no_directory (fun _ => true) maxLinks f (d.map Path.stepOf)
          fun entries he => hdir ⟨entries, he⟩
        rw [he] at hw
        cases hw
    · obtain ⟨e, he⟩ := walkFrom_too_long files maxLinks f (d.map Path.stepOf) hf
      rw [he] at hw
      cases hw

theorem resolve_keeps (hroot : canonicalize files w.root = .ok w.root)
    (h : w.resolve files path = .ok names) (hn : hasNul names = false)
    (hw : Walks files (fun _ => true) maxLinks [] (names.map Path.stepOf) u p)
    (hk : Keeps files files') : w.resolve files' path = .ok names := by
  obtain ⟨l, r, base, hs, rfl, _, _, hb⟩ := resolve_ok hroot h
  obtain ⟨hl, v, hv⟩ := canonicalize_ok_iff.1 hs.canonical
  suffices hs' : Splits files' (applySteps w.root (Path.steps path)) l r base by
    refine resolve_eq_ok.2 ⟨?_, hb.trans (List.prefix_append ..)⟩
    rw [hs'.canonicalPart [], List.append_nil]
  refine ⟨hs.names, canonicalize_ok_iff.2 ⟨hl, v, hv.keeps hk⟩, fun r' hr' hne q hq => ?_⟩
  have hwr : ∃ u p, Walks files (fun _ => true) maxLinks base (r'.map Path.stepOf) u p := by
    obtain ⟨d, rfl⟩ := hr'
    obtain ⟨n, hx⟩ := hw.exists_node ⟨files, rfl⟩
    have hc := canonical_of_canonicalize hs.canonical
    have he := hw.ends
    rw [hx, List.map_append, (hc.walks (fun _ _ => rfl) maxLinks).walkFrom (.inl rfl)] at he
    exact walks_of_walkFrom he List.map_append (.inr ⟨rfl, nofun⟩)
  obtain ⟨_, p', hwr⟩ := hwr
  rcases hwr.alike hk isShort v with ⟨v', hv'⟩ | ⟨_, e, he⟩
  · have hn' := hasNul_above (hasNul_append.1 hn).2 hr'
    refine hs.longest r' hr' hne p' (canonicalize_ok_iff.2 ⟨hasNul_append.2 ⟨hl, hn'⟩, v', ?_⟩)
    rw [List.map_append]
    exact hv.append hv'
  · obtain ⟨_, v', hv'⟩ := canonicalize_ok_iff.1 hq
    have hok := hv'.ends
    rw [List.map_append, (hv.keeps hk).walkFrom (.inl rfl), he] at hok
    cases hok

end Workspace

end Grapnel
