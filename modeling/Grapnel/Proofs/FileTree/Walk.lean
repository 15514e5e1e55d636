import Grapnel.Proofs.FileTree.Edit

namespace Grapnel

open Node FileTree

namespace FileTree

/-- A name that may be looked up in a directory. -/
structure Fits (fits : List String → Bool) (here : List String) (s : String) : Prop where
  name : s.utf8ByteSize ≤ maxName
  path : fits (here ++ [s]) = true

/-- The steps lead from one directory to a node, all links followed. -/
inductive Walks (files : Node) (fits : List String → Bool) :
    Nat → List String → List Path.Step → Nat → List String → Prop where
  | stop : Walks files fits k here [] k here
  | root : Walks files fits k [] xs u p → Walks files fits k here (.root :: xs) u p
  | up : files.at? here = some (.directory entries) →
      Walks files fits k here.dropLast xs u p → Walks files fits k here (.up :: xs) u p
  | stay : files.at? here = some (.directory entries) →
      Walks files fits k here xs u p → Walks files fits k here (.stay :: xs) u p
  | enter : Fits fits here s → files.at? (here ++ [s]) = some n → ¬ n.IsLink →
      Walks files fits k (here ++ [s]) xs u p → Walks files fits k here (.name s :: xs) u p
  | follow : Fits fits here s → files.at? (here ++ [s]) = some (.link t) →
      Walks files fits k here (Path.linkSteps t ++ xs) u p →
      Walks files fits (k + 1) here (.name s :: xs) u p

/-- Whatever there is in the first tree is of the same kind in the second. -/
def Keeps (files files' : Node) : Prop :=
  ∀ q n, files.at? q = some n → ∃ n', files'.at? q = some n' ∧ n'.kind = n.kind

variable {files files' n m : Node} {fits : List String → Bool} {k u : Nat}
  {here names p q : List String} {f : Bool} {xs ys zs : List Path.Step} {s t : String}
  {entries : List (String × Node)} {place : Place}

theorem not_isLink (h : ∀ t, n = .link t → False) : ¬ n.IsLink := by
  cases n with
  | link t => exact fun _ => h t rfl
  | file | directory | socket => exact id

theorem fits_iff : Fits fits here s ↔
    ¬ (decide (s.utf8ByteSize > maxName) || !fits (here ++ [s])) = true := by
  rw [Bool.or_eq_true, decide_eq_true_eq, Bool.not_eq_true', not_or, Nat.not_lt, Bool.not_eq_false]
  exact ⟨fun h => ⟨h.name, h.path⟩, fun h => ⟨h.1, h.2⟩⟩

theorem walkFrom_too_long (files : Node) (k : Nat) (f : Bool) (xs : List Path.Step)
    (h : ¬ Fits fits here s) :
    ∃ e, walkFrom files fits k here f (.name s :: xs) = .error e := by
  rw [walkFrom]
  split
  · rw [if_pos (not_not.1 (mt fits_iff.2 h))]
    exact ⟨_, rfl⟩
  · exact ⟨_, rfl⟩
  · exact ⟨_, rfl⟩

theorem walkFrom_name (hd : files.at? here = some (.directory entries)) (h : Fits fits here s) :
    walkFrom files fits k here f (.name s :: xs) =
      match entries.lookup s with
      | none => if xs.isEmpty then .ok ⟨here ++ [s], none⟩ else .error .noEntry
      | some (.link target) =>
        if xs.isEmpty && !f then .ok ⟨here ++ [s], some (.link target)⟩
        else
          match k with
          | 0 => .error .loop
          | k + 1 => walkFrom files fits k here f (Path.linkSteps target ++ xs)
      | some _ => walkFrom files fits k (here ++ [s]) f xs := by
  rw [walkFrom, hd]
  exact if_neg (fits_iff.1 h)

theorem walkFrom_enter (h : Fits fits here s) (hs : files.at? (here ++ [s]) = some n)
    (hl : ¬ n.IsLink) :
    walkFrom files fits k here f (.name s :: xs) = walkFrom files fits k (here ++ [s]) f xs := by
  obtain ⟨entries, hd, hs⟩ := directory_of_child hs
  rw [walkFrom_name hd h, hs]
  cases n with
  | link => exact absurd trivial hl
  | file | directory | socket => rfl

theorem followed (hx : f = true ∨ xs ≠ []) : (xs.isEmpty && !f) = false := by
  rcases hx with rfl | hx
  · exact Bool.and_false _
  · rw [List.isEmpty_eq_false_iff.2 hx, Bool.false_and]

theorem walkFrom_follow (h : Fits fits here s) (hs : files.at? (here ++ [s]) = some (.link t))
    (hx : f = true ∨ xs ≠ []) :
    walkFrom files fits (k + 1) here f (.name s :: xs) =
      walkFrom files fits k here f (Path.linkSteps t ++ xs) := by
  obtain ⟨entries, hd, hs⟩ := directory_of_child hs
  rw [walkFrom_name hd h, hs]
  simp only [followed hx, Bool.false_eq_true, if_false]

theorem walkFrom_loop (h : Fits fits here s) (hs : files.at? (here ++ [s]) = some (.link t))
    (hx : f = true ∨ xs ≠ []) :
    walkFrom files fits 0 here f (.name s :: xs) = .error .loop := by
  obtain ⟨entries, hd, hs⟩ := directory_of_child hs
  rw [walkFrom_name hd h, hs]
  simp only [followed hx, Bool.false_eq_true, if_false]

theorem walkFrom_no_directory (fits : List String → Bool) (k : Nat) (f : Bool)
    (xs : List Path.Step) (h : ∀ entries, files.at? here ≠ some (.directory entries)) :
    ∃ e, walkFrom files fits k here f (.name s :: xs) = .error e := by
  rw [walkFrom]
  split
  · next hd => exact absurd hd (h _)
  · exact ⟨_, rfl⟩
  · exact ⟨_, rfl⟩

theorem fits_of_walkFrom (h : walkFrom files fits k here f (.name s :: xs) = .ok place) :
    Fits fits here s ∧ ∃ entries, files.at? here = some (.directory entries) := by
  constructor
  · by_contra hf
    obtain ⟨e, he⟩ := walkFrom_too_long files k f xs hf
    rw [he] at h
    cases h
  · by_contra hd
    obtain ⟨e, he⟩ := walkFrom_no_directory fits k f xs fun entries he => hd ⟨entries, he⟩
    rw [he] at h
    cases h

theorem walkFrom_last (hd : files.at? here = some (.directory entries)) (hf : Fits fits here s) :
    walkFrom files fits k here false [.name s] = .ok ⟨here ++ [s], files.at? (here ++ [s])⟩ := by
  rw [walkFrom_name hd hf, ← at?_directory hd]
  split
  · next hs => rw [hs]; rfl
  · next hs => rw [hs]; rfl
  · rw [walkFrom]

theorem walkFrom_missing (hd : files.at? here = some (.directory entries)) (hf : Fits fits here s)
    (hs : files.at? (here ++ [s]) = none) (hx : xs ≠ []) :
    walkFrom files fits k here f (.name s :: xs) = .error .noEntry := by
  rw [at?_directory hd] at hs
  rw [walkFrom_name hd hf, hs]
  exact if_neg (mt List.isEmpty_iff.1 hx)

theorem Walks.walkFrom (h : Walks files fits k here xs u p) (hy : f = true ∨ ys ≠ []) :
    walkFrom files fits k here f (xs ++ ys) = walkFrom files fits u p f ys := by
  induction h with
  | stop => rfl
  | root _ ih => exact (walkFrom.eq_2 ..).trans ih
  | up hd _ ih => rw [List.cons_append, FileTree.walkFrom, hd]; exact ih
  | stay hd _ ih => rw [List.cons_append, FileTree.walkFrom, hd]; exact ih
  | enter hf hs hl _ ih => rw [List.cons_append, walkFrom_enter hf hs hl, ih]
  | follow hf hs _ ih =>
    rw [List.cons_append,
      walkFrom_follow hf hs (hy.imp_right (List.append_ne_nil_of_right_ne_nil _)),
      ← List.append_assoc, ih]

theorem Walks.ends (h : Walks files fits k here xs u p) :
    FileTree.walkFrom files fits k here true xs = .ok ⟨p, files.at? p⟩ := by
  have he : FileTree.walkFrom files fits k here true (xs ++ []) = _ := h.walkFrom (.inl rfl)
  rwa [List.append_nil, FileTree.walkFrom] at he

theorem Walks.exists_node (h : Walks files fits k here xs u p) (hx : ∃ n, files.at? here = some n) :
    ∃ n, files.at? p = some n := by
  induction h with
  | stop => exact hx
  | root _ ih => exact ih ⟨files, rfl⟩
  | up hd _ ih => exact ih (at?_above hd (List.dropLast_prefix _))
  | stay _ _ ih => exact ih hx
  | enter _ hs _ _ ih => exact ih ⟨_, hs⟩
  | follow _ _ _ ih => exact ih hx

theorem walks_of_walkFrom (h : walkFrom files fits k here f zs = .ok place) (hz : zs = xs ++ ys)
    (hy : ys ≠ [] ∨ f = true ∧ place.node ≠ none) : ∃ u p, Walks files fits k here xs u p := by
  fun_induction FileTree.walkFrom files fits k here f zs generalizing xs with
  | case1 =>
    cases xs with
    | nil => exact ⟨_, _, .stop⟩
    | cons => cases hz
  | case2 _ _ _ ih =>
    cases xs with
    | nil => exact ⟨_, _, .stop⟩
    | cons =>
      cases hz
      obtain ⟨u, p, hw⟩ := ih h rfl
      exact ⟨u, p, .root hw⟩
  | case3 _ _ _ _ hd ih =>
    cases xs with
    | nil => exact ⟨_, _, .stop⟩
    | cons =>
      cases hz
      obtain ⟨u, p, hw⟩ := ih h rfl
      exact ⟨u, p, .up hd hw⟩
  | case6 _ _ _ _ hd ih =>
    cases xs with
    | nil => exact ⟨_, _, .stop⟩
    | cons =>
      cases hz
      obtain ⟨u, p, hw⟩ := ih h rfl
      exact ⟨u, p, .stay hd hw⟩
  | case10 _ _ _ rest _ _ _ _ hr =>
    cases xs with
    | nil => exact ⟨_, _, .stop⟩
    | cons =>
      cases hz
      cases h
      rcases hy with hy | hy
      · exact absurd (List.append_eq_nil_iff.1 (List.isEmpty_iff.1 hr)).2 hy
      · exact absurd rfl hy.2
  | case12 _ _ _ rest _ _ _ _ _ hr =>
    cases xs with
    | nil => exact ⟨_, _, .stop⟩
    | cons =>
      cases hz
      rw [Bool.and_eq_true, List.isEmpty_iff] at hr
      rcases hy with hy | hy
      · exact absurd (List.append_eq_nil_iff.1 hr.1).2 hy
      · rw [hy.1] at hr
        cases hr.2
  | case14 here s rest entries hd hn target hl hr k ih =>
    cases xs with
    | nil => exact ⟨_, _, .stop⟩
    | cons =>
      cases hz
      obtain ⟨u, p, hw⟩ := ih h (List.append_assoc ..).symm
      exact ⟨u, p, .follow (fits_iff.2 hn) ((at?_directory hd).trans hl) hw⟩
  | case15 k here s rest entries hd hn n hl hs ih =>
    cases xs with
    | nil => exact ⟨_, _, .stop⟩
    | cons =>
      cases hz
      obtain ⟨u, p, hw⟩ := ih h rfl
      exact ⟨u, p, .enter (fits_iff.2 hn) ((at?_directory hd).trans hs) (not_isLink hl) hw⟩
  | _ => cases h

theorem Walks.append (h : Walks files fits k here xs u p) (h' : Walks files fits u p ys v q) :
    Walks files fits k here (xs ++ ys) v q := by
  induction h with
  | stop => exact h'
  | root _ ih => exact .root (ih h')
  | up hd _ ih => exact .up hd (ih h')
  | stay hd _ ih => exact .stay hd (ih h')
  | enter hf hs hl _ ih => exact .enter hf hs hl (ih h')
  | follow hf hs _ ih => exact .follow hf hs (List.append_assoc .. ▸ ih h')

theorem Keeps.directory (h : Keeps files files') (hd : files.at? p = some (.directory entries)) :
    ∃ entries', files'.at? p = some (.directory entries') := by
  obtain ⟨n', hn, hk⟩ := h p _ hd
  obtain ⟨entries', rfl⟩ := shape_of_kind hk
  exact ⟨entries', hn⟩

theorem Keeps.link (h : Keeps files files') (hl : files.at? p = some (.link t)) :
    files'.at? p = some (.link t) := by
  obtain ⟨n', hn, hk⟩ := h p _ hl
  cases n' with
  | link => cases hk; exact hn
  | file | directory | socket => cases hk

theorem Keeps.not_link (h : Keeps files files') (hs : files.at? p = some n) (hl : ¬ n.IsLink) :
    ∃ n', files'.at? p = some n' ∧ ¬ n'.IsLink := by
  obtain ⟨n', hn, hk⟩ := h p _ hs
  refine ⟨n', hn, fun hn' => hl ?_⟩
  cases n' with
  | link =>
    cases n with
    | link => trivial
    | file | directory | socket => cases hk
  | file | directory | socket => exact hn'.elim

theorem Walks.keeps (h : Walks files fits k here xs u p) (hk : Keeps files files') :
    Walks files' fits k here xs u p := by
  induction h with
  | stop => exact .stop
  | root _ ih => exact .root ih
  | up hd _ ih => exact .up (hk.directory hd).choose_spec ih
  | stay hd _ ih => exact .stay (hk.directory hd).choose_spec ih
  | enter hf hs hl _ ih =>
    obtain ⟨n', hn, hl'⟩ := hk.not_link hs hl
    exact .enter hf hn hl' ih
  | follow hf hs _ ih => exact .follow hf (hk.link hs) ih

theorem walkFrom_some (h : walkFrom files fits k here true zs = .ok ⟨p, some n⟩) :
    (∃ u, Walks files fits k here zs u p) ∧ files.at? p = some n := by
  obtain ⟨u, q, hw⟩ := walks_of_walkFrom h (List.append_nil zs).symm (.inr ⟨rfl, nofun⟩)
  rw [hw.ends] at h
  obtain ⟨rfl, hn⟩ := Place.mk.inj (Except.ok.inj h)
  exact ⟨⟨u, hw⟩, hn⟩

theorem place_of_walkFrom (h : walkFrom files fits k here f zs = .ok place)
    (hx : ∃ n, files.at? here = some n) :
    place.node = files.at? place.names ∧ (place.node = none → ∃ d s entries,
      place.names = d ++ [s] ∧ files.at? d = some (.directory entries)) := by
  fun_induction FileTree.walkFrom files fits k here f zs with
  | case1 here =>
    cases h
    obtain ⟨n, hn⟩ := hx
    exact ⟨rfl, fun h => nomatch hn.symm.trans h⟩
  | case2 _ _ _ ih => exact ih h ⟨files, rfl⟩
  | case3 _ here _ _ hd ih =>
    exact ih h (at?_above hd (List.dropLast_prefix here))
  | case6 _ _ _ _ _ ih => exact ih h hx
  | case10 _ here s _ _ hd _ hs =>
    cases h
    exact ⟨((at?_directory hd).trans hs).symm, fun _ => ⟨here, s, _, rfl, hd⟩⟩
  | case12 _ _ _ _ _ hd _ _ hs =>
    cases h
    exact ⟨((at?_directory hd).trans hs).symm, nofun⟩
  | case14 _ _ _ _ _ _ _ _ _ _ ih => exact ih h hx
  | case15 _ _ _ _ _ hd _ _ _ hs ih => exact ih h ⟨_, (at?_directory hd).trans hs⟩
  | _ => cases h

/-- Where a walk succeeds in a tree, a walk with less freedom ends alike in that tree and in one
that keeps it. -/
theorem Walks.alike (h : Walks files (fun _ => true) k here xs v p) (hk : Keeps files files')
    (fits : List String → Bool) (u : Nat) :
    (∃ u', Walks files fits u here xs u' p) ∨
      ((∃ e, FileTree.walkFrom files fits u here true xs = .error e) ∧
        ∃ e, FileTree.walkFrom files' fits u here true xs = .error e) := by
  induction h generalizing u with
  | stop => exact .inl ⟨u, .stop⟩
  | root _ ih =>
    refine (ih u).imp (Exists.imp fun _ => .root) fun h => ?_
    rwa [walkFrom.eq_2, walkFrom.eq_2]
  | up hd _ ih =>
    refine (ih u).imp (Exists.imp fun _ => .up hd) fun h => ?_
    obtain ⟨entries', hd'⟩ := hk.directory hd
    rw [FileTree.walkFrom, hd, FileTree.walkFrom, hd']
    exact h
  | stay hd _ ih =>
    refine (ih u).imp (Exists.imp fun _ => .stay hd) fun h => ?_
    obtain ⟨entries', hd'⟩ := hk.directory hd
    rw [FileTree.walkFrom, hd, FileTree.walkFrom, hd']
    exact h
  | @enter here s n _ _ _ _ _ hs hl _ ih =>
    by_cases hf : Fits fits here s
    · refine (ih u).imp (Exists.imp fun _ => .enter hf hs hl) fun h => ?_
      obtain ⟨n', hn, hl'⟩ := hk.not_link hs hl
      rwa [walkFrom_enter hf hs hl, walkFrom_enter hf hn hl']
    · exact .inr ⟨walkFrom_too_long files u true _ hf, walkFrom_too_long files' u true _ hf⟩
  | @follow here s t _ _ _ _ _ hs _ ih =>
    by_cases hf : Fits fits here s
    · cases u with
      | zero =>
        exact .inr ⟨⟨_, walkFrom_loop hf hs (.inl rfl)⟩,
          ⟨_, walkFrom_loop hf (hk.link hs) (.inl rfl)⟩⟩
      | succ u =>
        refine (ih u).imp (Exists.imp fun _ => .follow hf hs) fun h => ?_
        rwa [walkFrom_follow hf hs (.inl rfl), walkFrom_follow hf (hk.link hs) (.inl rfl)]
    · exact .inr ⟨walkFrom_too_long files u true _ hf, walkFrom_too_long files' u true _ hf⟩

theorem walk_eq (h : isShort names = true) : walk files names =
    walkFrom files (fun _ => true) maxLinks [] true (names.map Path.stepOf) := if_pos h

theorem walkShort_eq (h : isShort names = true) : walkShort files names =
    walkFrom files (fun _ => true) maxLinks [] false (names.map Path.stepOf) := if_pos h

theorem isShort_of_walk (h : walk files names = .ok place) : isShort names = true := by
  refine eq_true_of_ne_false fun hs => ?_
  rw [walk, hs] at h
  cases h

theorem isShort_of_walkShort (h : walkShort files names = .ok place) : isShort names = true := by
  refine eq_true_of_ne_false fun hs => ?_
  rw [walkShort, hs] at h
  cases h

theorem walk_some (h : walk files names = .ok ⟨p, some n⟩) :
    (∃ u, Walks files (fun _ => true) maxLinks [] (names.map Path.stepOf) u p) ∧
      files.at? p = some n := by
  rw [walk_eq (isShort_of_walk h)] at h
  exact walkFrom_some h

theorem walk_of_walks (hs : isShort names = true)
    (h : Walks files (fun _ => true) maxLinks [] (names.map Path.stepOf) u p) :
    walk files names = .ok ⟨p, files.at? p⟩ := by
  rw [walk_eq hs, h.ends]

theorem absolute_size (h : p ≠ []) : (Path.absolute p).utf8ByteSize =
    (p.map fun s => s.utf8ByteSize + 1).sum := by
  rw [Path.absolute, if_neg (mt List.isEmpty_iff.1 h), String.utf8ByteSize_append]
  induction p with
  | nil => exact absurd rfl h
  | cons s p ih =>
    cases p with
    | nil => rw [String.intercalate_singleton]; exact Nat.add_comm ..
    | cons t p =>
      rw [String.intercalate_cons_cons, String.utf8ByteSize_append, String.utf8ByteSize_append,
        List.map_cons, List.sum_cons, ← ih (List.cons_ne_nil t p)]
      have hs : "/".utf8ByteSize = 1 := rfl
      omega

theorem isShort_above (h : isShort q = true) (hp : p <+: q) : isShort p = true := by
  obtain ⟨r, rfl⟩ := hp
  by_cases hn : p = []
  · subst hn
    rfl
  · rw [isShort, decide_eq_true_eq] at h ⊢
    rw [absolute_size (List.append_ne_nil_of_left_ne_nil hn r), List.map_append,
      List.sum_append] at h
    rw [absolute_size hn]
    omega

end FileTree

end Grapnel
