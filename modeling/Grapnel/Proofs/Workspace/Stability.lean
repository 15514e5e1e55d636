import Grapnel.Proofs.FileTree.Links
import Grapnel.Proofs.FileTree.PathText
import Grapnel.Proofs.Workspace.Resolution

namespace Grapnel

open Node FileTree

namespace FileTree

/-- Whatever is in the tree has a name that can stand in a path. -/
def Named (files : Node) : Prop :=
  ∀ p s n, files.at? (p ++ [s]) = some n → Path.IsName s ∧ hasNul [s] = false

variable {files n : Node} {entries : List (String × Node)} {fits : List String → Bool}
  {k u v : Nat} {l m p q r : List String} {xs ys : List Path.Step}

theorem named_leaf (h : ∀ s, n.child? s = none) : Named n := by
  intro p s m hs
  cases p with
  | nil =>
    rw [List.nil_append, at?, h] at hs
    cases hs
  | cons d p =>
    rw [List.cons_append, at?, h] at hs
    cases hs

theorem named_directory (h : ∀ e ∈ entries,
    (Path.IsName e.1 ∧ hasNul [e.1] = false) ∧ Named e.2) : Named (.directory entries) := by
  intro p s n hs
  cases p with
  | nil =>
    obtain ⟨_, hd, hs⟩ := directory_of_child hs
    cases hd
    exact (h (s, n) (mem_of_lookup hs)).1
  | cons d p =>
    rw [List.cons_append, at?] at hs
    obtain ⟨m, hm, hs⟩ := Option.bind_eq_some_iff.1 hs
    exact (h (d, m) (mem_of_lookup hm)).2 p s n hs

theorem Canonical.named (h : Canonical files fits p) (hn : Named files) :
    (∀ s ∈ p, Path.IsName s) ∧ hasNul p = false := by
  induction h with
  | root => exact ⟨fun _ hs => absurd hs List.not_mem_nil, rfl⟩
  | @child p s n _ _ _ ha _ ih =>
    obtain ⟨hname, hnul⟩ := hn p s n ha
    refine ⟨fun t ht => ?_, hasNul_append.2 ⟨ih.2, hnul⟩⟩
    rcases List.mem_append.1 ht with ht | ht
    · exact ih.1 t ht
    · exact List.mem_singleton.1 ht ▸ hname

theorem canonicalize_nil (files : Node) : canonicalize files [] = .ok [] :=
  canonicalize_ok_iff.2 ⟨rfl, maxLinks, .stop⟩

theorem Walks.after (h : Walks files fits k [] xs u p) (h' : Walks files fits k [] (xs ++ ys) v q) :
    ∃ v', Walks files fits u p ys v' q := by
  obtain ⟨n, hn⟩ := h'.exists_node ⟨files, rfl⟩
  have hend := h'.ends
  rw [h.walkFrom (.inl rfl), hn] at hend
  exact (walkFrom_some hend).1

theorem canonicalize_above (h : canonicalize files (m ++ r) = .ok q) :
    ∃ q', canonicalize files m = .ok q' := by
  obtain ⟨hn, u, hw⟩ := canonicalize_ok_iff.1 h
  obtain ⟨n, hx⟩ := hw.exists_node ⟨files, rfl⟩
  obtain ⟨v, q', hm⟩ := walks_of_walkFrom hw.ends List.map_append (.inr ⟨rfl, by simp [hx]⟩)
  exact ⟨q', canonicalize_ok_iff.2 ⟨(hasNul_append.1 hn).1, v, hm⟩⟩

end FileTree

namespace Workspace

/-- The longest part of the names that can be made canonical is its own canonical form, and the names
are resolved to themselves. -/
structure Settled (w : Workspace) (files : Node) (names : List String) : Prop where
  canonical : ∃ m, m <+: names ∧ canonicalize files m = .ok m ∧
    ∀ m', m' <+: names → ∀ q, canonicalize files m' = .ok q → m' <+: m
  again : w.resolve files (Path.absolute names) = .ok names

/-- The way to the canonical part and on through the name after it follows more links than a walk may,
but the way on alone does not. -/
def Overlong (files : Node) (l r base : List String) : Prop :=
  ∃ x d e q, [x] <+: r ∧ Walks files isShort d [] (l.map Path.stepOf) 0 base ∧
    Walks files isShort e base [.name x] 0 q ∧ e ≤ maxLinks ∧ maxLinks < d + e

variable {w : Workspace} {files : Node} {path x s : String}
  {names l l' m q r r' base base' : List String} {xs : List Path.Step}

theorem applySteps_names (names ns : List String) :
    applySteps names (ns.map .name) = names ++ ns := by
  induction ns generalizing names with
  | nil => exact (List.append_nil names).symm
  | cons s ns ih => rw [List.map_cons, applySteps, ih, List.append_assoc, List.singleton_append]

theorem applySteps_absolute (names : List String) (h : ∀ s ∈ l, Path.IsName s) :
    applySteps names (Path.steps (Path.absolute l)) = l := by
  rw [Path.steps_absolute h, applySteps, applySteps_names, List.nil_append]

theorem isName_applySteps (h : ∀ s ∈ names, Path.IsName s)
    (hx : ∀ s, .name s ∈ xs → Path.IsName s) : ∀ s ∈ applySteps names xs, Path.IsName s := by
  induction xs generalizing names with
  | nil => exact h
  | cons x xs ih =>
    have hxs (s : String) (hs : .name s ∈ xs) := hx s (List.mem_cons_of_mem x hs)
    cases x with
    | root => exact ih (fun _ hs => absurd hs List.not_mem_nil) hxs
    | up => exact ih (fun s hs => h s (List.mem_of_mem_dropLast hs)) hxs
    | stay => exact ih h hxs
    | name s =>
      refine ih (fun t ht => ?_) hxs
      rcases List.mem_append.1 ht with ht | ht
      · exact h t ht
      · exact List.mem_singleton.1 ht ▸ hx s List.mem_cons_self

theorem exists_splits (files : Node) (names : List String) :
    ∃ l r base, Splits files names l r base := by
  induction names using List.reverseRecOn with
  | nil =>
    refine ⟨[], [], [], rfl, canonicalize_nil files, fun r hr hne => ?_⟩
    exact absurd (List.prefix_nil.1 hr) hne
  | append_singleton names s ih =>
    cases hc : canonicalize files (names ++ [s]) with
    | ok base =>
      refine ⟨names ++ [s], [], base, (List.append_nil _).symm, hc, fun r hr hne => ?_⟩
      exact absurd (List.prefix_nil.1 hr) hne
    | error e =>
      obtain ⟨l, r, base, rfl, hl, hlong⟩ := ih
      refine ⟨l, r ++ [s], base, List.append_assoc .., hl, fun r' hr' hne q hq => ?_⟩
      rcases List.prefix_concat_iff.1 hr' with rfl | hr'
      · rw [← List.append_assoc, hc] at hq
        cases hq
      · exact hlong r' hr' hne q hq

theorem Splits.above (h : Splits files names l r base) (hm : m <+: names)
    (hc : canonicalize files m = .ok q) : m <+: l := by
  have hl : l <+: names := ⟨r, h.names.symm⟩
  rcases List.prefix_or_prefix_of_prefix hm hl with hp | ⟨d, rfl⟩
  · exact hp
  · by_cases hd : d = []
    · rw [hd, List.append_nil]
    · have hdr : d <+: r := (List.prefix_append_right_inj l).1 (h.names ▸ hm)
      exact absurd hc (h.longest d hdr hd q)

theorem Splits.unique (h : Splits files names l r base) (h' : Splits files names l' r' base') :
    l = l' ∧ r = r' ∧ base = base' := by
  have hle := h.above ⟨r', h'.names.symm⟩ h'.canonical
  have hge := h'.above ⟨r, h.names.symm⟩ h.canonical
  obtain rfl : l = l' := hge.eq_of_length_le hle.length_le
  have hr := h.names.symm.trans h'.names
  have hb := h.canonical.symm.trans h'.canonical
  exact ⟨rfl, List.append_cancel_left hr, Except.ok.inj hb⟩

/-- A path is resolved to the canonical part with the rest after it, if that lies below the root. -/
theorem Splits.resolve (h : Splits files (applySteps w.root (Path.steps path)) l r base) :
    w.resolve files path =
      if w.root <+: base ++ r then .ok (base ++ r) else .error (.escape path) := by
  have hp := h.canonicalPart []
  rw [List.append_nil] at hp
  rw [Workspace.resolve, hp]
  by_cases hroot : w.root <+: base ++ r
  · rw [if_pos hroot]
    exact if_pos (List.isPrefixOf_iff_prefix.2 hroot)
  · rw [if_neg hroot]
    exact if_neg (mt List.isPrefixOf_iff_prefix.1 hroot)

/-- What was resolved is settled unless a name after the canonical part can be made canonical when
one starts from this part. -/
theorem Splits.settled_iff (h : Splits files names l r base) (hroot : w.root <+: base ++ r)
    (hn : Named files) (hr : ∀ s ∈ r, Path.IsName s) :
    w.Settled files (base ++ r) ↔
      ∀ x, [x] <+: r → ∀ q, canonicalize files (base ++ [x]) ≠ .ok q := by
  have hbase := canonical_of_canonicalize h.canonical
  obtain ⟨hname, hnul⟩ := hbase.named hn
  constructor
  · rintro ⟨⟨m, _, hm, hlong⟩, _⟩ x hx q hq
    -- `x` is on the canonical part, so it is no link, and the first walk would have gone on to it.
    have hbx : base ++ [x] <+: m :=
      hlong _ ((List.prefix_append_right_inj base).2 hx) q hq
    obtain ⟨hf, n, hn', hl⟩ := ((canonical_of_canonicalize hm).above hbx).last
    have hx' := hr x (hx.subset (List.mem_singleton_self x))
    exact hl (link_of_not_canonical h.canonical hx'.up (h.longest [x] hx (List.cons_ne_nil x []))
      (hn base x n hn').2 hf hn')
  · intro hno
    have hlong : ∀ r', r' <+: r → r' ≠ [] → ∀ q, canonicalize files (base ++ r') ≠ .ok q := by
      intro r' hr' hne q hq
      obtain ⟨x, d, rfl⟩ := List.exists_cons_of_ne_nil hne
      rw [← List.singleton_append, ← List.append_assoc] at hq
      obtain ⟨q', hq'⟩ := canonicalize_above hq
      exact hno x ((List.prefix_append [x] d).trans hr') q' hq'
    have hself : Splits files (base ++ r) base r base :=
      ⟨rfl, canonicalize_canonical h.canonical hnul, hlong⟩
    refine ⟨⟨base, List.prefix_append .., hself.canonical, fun m' hm' q => hself.above hm'⟩, ?_⟩
    have hsteps : applySteps w.root (Path.steps (Path.absolute (base ++ r))) = base ++ r :=
      applySteps_absolute w.root fun s hs => (List.mem_append.1 hs).elim (hname s) (hr s)
    rw [Splits.resolve (hsteps ▸ hself), if_pos hroot]

theorem Splits.overlong_iff (h : Splits files names l r base) (hn : Named files)
    (hr : ∀ s ∈ r, Path.IsName s) :
    Overlong files l r base ↔
      ∃ x, [x] <+: r ∧ ∃ q, canonicalize files (base ++ [x]) = .ok q := by
  have hbase := canonical_of_canonicalize h.canonical
  have hwalk := hbase.walks (fun _ hf => hf) maxLinks
  constructor
  · rintro ⟨x, d, e, q, hx, -, he, hle, -⟩
    have hx' := hr x (hx.subset (List.mem_singleton_self x))
    have hnul : hasNul [x] = false := by
      cases he with
      | enter _ hs => exact (hn base x _ hs).2
      | follow _ hs => exact (hn base x _ hs).2
    refine ⟨x, hx, q, canonicalize_ok_iff.2
      ⟨hasNul_append.2 ⟨(hbase.named hn).2, hnul⟩, maxLinks - e, ?_⟩⟩
    rw [map_stepOf_concat hx'.up]
    exact hwalk.append (he.of_le hle)
  · rintro ⟨x, hx, q, hq⟩
    have hx' := hr x (hx.subset (List.mem_singleton_self x))
    obtain ⟨hnul, u, hw⟩ := canonicalize_ok_iff.1 hq
    obtain ⟨hnul', v, hl⟩ := canonicalize_ok_iff.1 h.canonical
    obtain ⟨d, hd, hl'⟩ := hl.links
    rw [map_stepOf_concat hx'.up] at hw
    obtain ⟨u', hx''⟩ := hwalk.after hw
    obtain ⟨e, he, hxe⟩ := hx''.links
    refine ⟨x, d, e, q, hx, hl', hxe, by omega, ?_⟩
    -- Were there links enough for both, the part would not end here.
    by_contra hle
    refine h.longest [x] hx (List.cons_ne_nil x []) q (canonicalize_ok_iff.2
      ⟨hasNul_append.2 ⟨hnul', (hasNul_append.1 hnul).2⟩, v - e, ?_⟩)
    rw [map_stepOf_concat hx'.up]
    exact hl.append (hxe.of_le (by omega))

/-- A path is either resolved to the canonical form of its longest part that has one, with the rest of
the names after it, or it is refused because that does not lie below the root. What it is resolved to
is settled just when no link after the canonical part is one too many. -/
theorem resolve_settled_iff (w : Workspace) (files : Node) (path : String) (hn : Named files)
    (hroot : canonicalize files w.root = .ok w.root) :
    ∃ l r base, Splits files (applySteps w.root (Path.steps path)) l r base ∧
      (w.resolve files path = .error (.escape path) ↔ ¬ w.root <+: base ++ r) ∧
      (w.resolve files path = .ok (base ++ r) ↔ w.root <+: base ++ r) ∧
      "." ∉ base ++ r ∧ ".." ∉ base ++ r ∧
      (w.root <+: base ++ r → (w.Settled files (base ++ r) ↔ ¬ Overlong files l r base)) := by
  obtain ⟨l, r, base, h⟩ := exists_splits files (applySteps w.root (Path.steps path))
  have hlr : ∀ s ∈ l ++ r, Path.IsName s := h.names ▸ isName_applySteps
    ((canonical_of_canonicalize hroot).named hn).1 fun _ => Path.isName_of_mem_steps
  have hr : ∀ s ∈ r, Path.IsName s := fun s hs => hlr s (List.mem_append_right l hs)
  have hnames : ∀ s ∈ base ++ r, Path.IsName s := fun s hs => (List.mem_append.1 hs).elim
    (((canonical_of_canonicalize h.canonical).named hn).1 s) (hr s)
  refine ⟨l, r, base, h, ?_, ?_, fun hs => (hnames _ hs).stay rfl, fun hs => (hnames _ hs).up rfl,
    fun hbelow => ?_⟩
  · rw [h.resolve]
    split <;> simp [*]
  · rw [h.resolve]
    split <;> simp [*]
  · rw [h.settled_iff hbelow hn hr, h.overlong_iff hn hr]
    simp only [not_exists, not_and, ne_eq]

/-- A workspace with a link to itself, and with a link to a file. -/
def selfLink : Node :=
  .directory [("ws", .directory [("a", .link "."), ("t", .file []), ("x", .link "t")])]

/-- A way to the workspace that follows as many links as a walk may. -/
def longWay : List String := "ws" :: List.replicate maxLinks "a"

theorem selfLink_root : canonicalize selfLink ["ws"] = .ok ["ws"] :=
  canonicalize_ok_iff.2 ⟨by decide, maxLinks, .enter ⟨by decide, by decide⟩ rfl id .stop⟩

theorem selfLink_named : Named selfLink := by
  have hname : ∀ s ∈ ["ws", "a", "t", "x"], Path.IsName s ∧ hasNul [s] = false := by decide
  refine named_directory fun e he => ?_
  obtain rfl := List.mem_singleton.1 he
  refine ⟨hname "ws" (by decide), named_directory fun e he => ?_⟩
  simp only [List.mem_cons, List.not_mem_nil, or_false] at he
  rcases he with rfl | rfl | rfl
  · exact ⟨hname "a" (by decide), named_leaf fun _ => rfl⟩
  · exact ⟨hname "t" (by decide), named_leaf fun _ => rfl⟩
  · exact ⟨hname "x" (by decide), named_leaf fun _ => rfl⟩

theorem selfLink_walks (n k : Nat) :
    Walks selfLink isShort (n + k) ["ws"] (List.replicate n (.name "a")) k ["ws"] := by
  have ht : Path.linkSteps "." = [.stay] := by cbv
  induction n with
  | zero =>
    rw [Nat.zero_add]
    exact .stop
  | succ n ih =>
    rw [Nat.add_right_comm, List.replicate_succ]
    exact .follow ⟨by decide, by decide⟩ rfl (ht ▸ .stay rfl ih)

theorem longWay_walks :
    Walks selfLink isShort maxLinks [] (longWay.map Path.stepOf) 0 ["ws"] := by
  rw [longWay, List.map_cons, List.map_replicate]
  exact .enter ⟨by decide, by decide⟩ rfl id (selfLink_walks maxLinks 0)

theorem longWay_splits : Splits selfLink (longWay ++ ["x"]) longWay ["x"] ["ws"] := by
  have hl := longWay_walks
  refine ⟨rfl, canonicalize_ok_iff.2 ⟨by decide, 0, hl⟩, fun r hr hne q hq => ?_⟩
  obtain rfl : r = ["x"] := hr.eq_of_length_le (List.length_pos_iff.2 hne)
  have hloop : walkFrom selfLink isShort 0 ["ws"] true [.name "x"] = .error .loop :=
    walkFrom_loop ⟨by decide, by decide⟩ rfl (.inl rfl)
  obtain ⟨_, u, hw⟩ := canonicalize_ok_iff.1 hq
  have hend := hw.ends
  rw [List.map_append, hl.walkFrom (.inl rfl)] at hend
  cases hloop.symm.trans hend

theorem resolve_settled_iff_longWay :
    Workspace.resolve ⟨["ws"], .sound⟩ selfLink (Path.absolute (longWay ++ ["x"])) = .ok ["ws", "x"] ∧
    ¬ Workspace.Settled ⟨["ws"], .sound⟩ selfLink ["ws", "x"] := by
  have ht : Path.linkSteps "t" = [.name "t"] := by cbv
  have hx : Walks selfLink isShort 1 ["ws"] [.name "x"] 0 ["ws", "t"] :=
    .follow ⟨by decide, by decide⟩ rfl (ht ▸ .enter ⟨by decide, by decide⟩ rfl id .stop)
  have hsteps : applySteps ["ws"] (Path.steps (Path.absolute (longWay ++ ["x"]))) =
      longWay ++ ["x"] := applySteps_absolute ["ws"] (by decide)
  obtain ⟨l, r, base, hs, -, hok, -, -, hset⟩ := resolve_settled_iff ⟨["ws"], .sound⟩ selfLink
    (Path.absolute (longWay ++ ["x"])) selfLink_named selfLink_root
  obtain ⟨rfl, rfl, rfl⟩ := (hsteps ▸ hs).unique longWay_splits
  refine ⟨hok.2 (by decide), fun h => (hset (by decide)).1 h ?_⟩
  exact ⟨"x", maxLinks, 1, ["ws", "t"], by decide, longWay_walks, hx, by decide, by decide⟩

end Workspace

end Grapnel
