import Grapnel.Proofs.FileTree.Change

namespace Grapnel

open Node

namespace FileTree

/-- What is new in the second tree are directories, except at the places. -/
structure Grows (files files' : Node) (places : Set (List String)) : Prop where
  keeps : Keeps files files'
  link : ∀ q t, files'.at? q = some (.link t) → files.at? q = some (.link t)
  same : ∀ q ∉ places, ∀ n, n.isDirectory = false →
    (files'.at? q = some n ↔ files.at? q = some n)

/-- No part of the names leads to a link. -/
def Linkless (files : Node) (names : List String) : Prop :=
  ∀ m t, m <+: names → files.at? m ≠ some (.link t)

/-- The names lead to a place where something is, or where it would be made, as no link is on the
way. -/
def LeadsTo (files : Node) (names p : List String) : Prop :=
  (∃ n, walk files names = .ok ⟨p, some n⟩) ∨ names = p ∧ Linkless files names

variable {files files' files'' n v : Node} {places : Set (List String)} {fits : List String → Bool}
  {f : Bool} {k u : Nat} {d here l m names p q : List String} {zs : List Path.Step} {s t : String}
  {c : List UInt8} {g : List UInt8 → List UInt8} {entries : List (String × Node)}

theorem Grows.refl (files : Node) (places : Set (List String)) : Grows files files places :=
  ⟨fun _ n h => ⟨n, h, rfl⟩, fun _ _ h => h, fun _ _ _ _ => Iff.rfl⟩

theorem Grows.trans (h : Grows files files' places) (h' : Grows files' files'' places) :
    Grows files files'' places where
  keeps q n hn := by
    obtain ⟨n', hn', hk⟩ := h.keeps q n hn
    obtain ⟨n'', hn'', hk'⟩ := h'.keeps q n' hn'
    exact ⟨n'', hn'', hk'.trans hk⟩
  link q t ht := h.link q t (h'.link q t ht)
  same q hq n hn := (h'.same q hq n hn).trans (h.same q hq n hn)

theorem Grows.mono (h : Grows files files' ∅) : Grows files files' places :=
  ⟨h.keeps, h.link, fun q _ => h.same q (Set.notMem_empty q)⟩

theorem shape_eq_self (h : n.isDirectory = false) : n.shape = n := by
  cases n with
  | directory => cases h
  | file | link | socket => rfl

theorem isDirectory_shape (n : Node) : n.shape.isDirectory = n.isDirectory := by
  cases n <;> rfl

theorem eq_some_iff_of_shape {a b : Option Node} (h : a.map shape = b.map shape)
    (hn : n.isDirectory = false) : a = some n ↔ b = some n := by
  have hone {a b : Option Node} (h : a.map shape = b.map shape) (ha : a = some n) : b = some n := by
    subst ha
    obtain ⟨m, rfl, hm⟩ := Option.map_eq_some_iff.1 h.symm
    have hd : m.isDirectory = false := by
      rw [← isDirectory_shape m, hm, isDirectory_shape, hn]
    rw [← shape_eq_self hd, hm, shape_eq_self hn]
  exact ⟨hone h, hone h.symm⟩

theorem grows_of_shape (hq : ∀ q, q ≠ p → (files'.at? q).map shape = (files.at? q).map shape)
    (hv : files'.at? p = some v) (hl : ¬ v.IsLink)
    (hk : ∀ n, files.at? p = some n → n.kind = v.kind)
    (hp : p ∈ places ∨ v.isDirectory = true ∧ files.at? p = none) :
    Grows files files' places where
  keeps q n hn := by
    by_cases hqp : q = p
    · subst hqp
      exact ⟨v, hv, (hk n hn).symm⟩
    · have hs := hq q hqp
      rw [hn] at hs
      obtain ⟨n', hn', hs⟩ := Option.map_eq_some_iff.1 hs
      exact ⟨n', hn', kind_of_shape hs⟩
  link q t ht := by
    by_cases hqp : q = p
    · rw [hqp, hv] at ht
      exact absurd (Option.some.inj ht ▸ trivial) hl
    · exact (eq_some_iff_of_shape (hq q hqp) rfl).1 ht
  same q hqs n hn := by
    by_cases hqp : q = p
    · obtain ⟨hd, hnone⟩ := hp.resolve_left (hqp ▸ hqs)
      rw [hqp, hv, hnone]
      refine ⟨fun h => ?_, nofun⟩
      rw [← Option.some.inj h, hd] at hn
      cases hn
    · exact eq_some_iff_of_shape (hq q hqp) hn

theorem at?_beyond (h : ∀ n, files.at? p = some n → ∀ s, n.child? s = none) (hm : m ≠ []) :
    files.at? (p ++ m) = none := by
  obtain ⟨s, m, rfl⟩ := List.exists_cons_of_ne_nil hm
  rw [at?_append]
  cases hp : files.at? p with
  | none => rfl
  | some n =>
    rw [Option.bind_some, at?, h n hp s]
    rfl

theorem shape_set_leaf (hb : ∀ n, files.at? p = some n → ∀ s, n.child? s = none)
    (hv : (files.set p (some v)).at? p = some v) (hc : ∀ s, v.child? s = none) (hq : q ≠ p) :
    ((files.set p (some v)).at? q).map shape = (files.at? q).map shape := by
  by_cases hpq : p <+: q
  · obtain ⟨m, rfl⟩ := hpq
    have hm : m ≠ [] := fun h => hq (by rw [h, List.append_nil])
    rw [at?_beyond hb hm, at?_beyond (fun n hn => ?_) hm]
    rw [hv] at hn
    cases hn
    exact hc
  · exact shape_set hpq

theorem grows_directory (hd : files.at? d = some (.directory entries))
    (hs : files.at? (d ++ [s]) = none) :
    Grows files (files.set (d ++ [s]) (some (.directory []))) ∅ := by
  have hno (n : Node) : files.at? (d ++ [s]) ≠ some n := fun h => nomatch hs.symm.trans h
  have hv : (files.set (d ++ [s]) (some (.directory []))).at? (d ++ [s]) = some (.directory []) :=
    at?_set_self _ hd
  exact grows_of_shape
    (fun _ => shape_set_leaf (fun n hn => absurd hn (hno n)) hv fun _ => rfl)
    hv id (fun n hn => absurd hn (hno n)) (.inr ⟨rfl, hs⟩)

theorem grows_file (hf : ∀ n, files.at? p = some n → ∃ b, n = .file b)
    (hv : (files.set p (some (.file c))).at? p = some (.file c)) :
    Grows files (files.set p (some (.file c))) {p} := by
  refine grows_of_shape (fun _ => shape_set_leaf (fun n hn => ?_) hv fun _ => rfl) hv id
    (fun n hn => ?_) (.inl rfl)
  · obtain ⟨b, rfl⟩ := hf n hn
    exact fun _ => rfl
  · obtain ⟨b, rfl⟩ := hf n hn
    rfl

theorem makeDirectory_grows (h : makeDirectory files names = .ok files') :
    Grows files files' ∅ := by
  obtain ⟨_, p, hw, rfl⟩ := makeDirectory_ok h
  rw [walkShort_eq (isShort_of_walkShort hw)] at hw
  obtain ⟨hn, hd⟩ := place_of_walkFrom hw ⟨files, rfl⟩
  obtain ⟨d, s, entries, hp, hdir⟩ := hd rfl
  subst hp
  exact grows_directory hdir hn.symm

theorem settle_grows (files : Node) (names : List String) :
    Grows files (settle files names).2 ∅ := by
  cases hm : makeDirectory files names with
  | ok files' =>
    rw [settle, hm]
    exact makeDirectory_grows hm
  | error e =>
    rw [settle_error hm]
    exact .refl files ∅

theorem makeDirectories_grows (files : Node) (names : List String) :
    Grows files (makeDirectories files names).2 ∅ := by
  induction names using List.reverseRecOn with
  | nil =>
    rw [makeDirectories_error makeDirectory_nil (by simp)]
    exact settle_grows files []
  | append_singleton l s ih =>
    cases hm : makeDirectory files (l ++ [s]) with
    | ok files' =>
      rw [makeDirectories_ok hm]
      exact makeDirectory_grows hm
    | error e =>
      by_cases he : e = .system .noEntry
      · subst he
        rw [makeDirectories_beyond hm (by simp), List.dropLast_concat]
        rcases hr : makeDirectories files l with ⟨r, files₁⟩
        rw [hr] at ih
        cases r with
        | ok => exact ih.trans (settle_grows files₁ _)
        | error => exact ih
      · rw [makeDirectories_error hm he]
        exact settle_grows files _

theorem walks_of_missing (h : walkFrom files fits k here true zs = .ok ⟨p, none⟩)
    (hx : ∃ n, files.at? here = some n) (hk : Keeps files files') (hv : files'.at? p = some v)
    (hl : ¬ v.IsLink) : ∃ u, Walks files' fits k here zs u p := by
  have hdir {q : List String} {entries : List (String × Node)}
      (hd : files.at? q = some (.directory entries)) := (hk.directory hd).choose_spec
  generalize hplace : Place.mk p none = place at h
  generalize hf : true = f at h
  -- Only the last name can be missing; each step before it is taken in the second tree as well.
  fun_induction FileTree.walkFrom files fits k here f zs with
  | case1 here =>
    cases h
    obtain ⟨n, hn⟩ := hx
    cases hn.symm.trans (Place.mk.inj hplace).2.symm
  | case2 _ _ _ ih => exact (ih ⟨files, rfl⟩ h).imp fun _ => .root
  | case3 _ here _ _ hd ih =>
    exact (ih (at?_above hd (List.dropLast_prefix here)) h).imp fun _ => .up (hdir hd)
  | case6 _ _ _ _ hd ih => exact (ih hx h).imp fun _ => .stay (hdir hd)
  | case10 k here s rest entries hd hn hs hr =>
    cases h
    obtain ⟨rfl, -⟩ := Place.mk.inj hplace
    rw [List.isEmpty_iff.1 hr]
    exact ⟨k, .enter (fits_iff.2 hn) hv hl .stop⟩
  | case12 _ _ _ _ _ _ _ _ _ hr =>
    subst hf
    simp at hr
  | case14 _ _ _ _ hd hn _ ht _ _ ih =>
    have ht := hk.link ((at?_directory hd).trans ht)
    exact (ih hx h).imp fun _ => .follow (fits_iff.2 hn) ht
  | case15 _ _ _ _ _ hd hn _ hl' hs ih =>
    have hs := (at?_directory hd).trans hs
    obtain ⟨n', hn', hl''⟩ := hk.not_link hs (not_isLink hl')
    exact (ih ⟨_, hs⟩ h).imp fun _ => .enter (fits_iff.2 hn) hn' hl''
  | _ => cases h

/-- A file that was changed or made is where its names lead, and all else stays. -/
theorem update_grows (h : update files names g = .ok files') : hasNul names = false ∧
    ∃ p b, Grows files files' {p} ∧ walk files' names = .ok ⟨p, some (.file (g b))⟩ ∧
      (walk files names = .ok ⟨p, some (.file b)⟩ ∨
        walk files names = .ok ⟨p, none⟩ ∧ b = []) := by
  obtain ⟨hn, p, ⟨b, hw, rfl⟩ | ⟨hw, rfl⟩⟩ := update_ok h
  · obtain ⟨⟨u, hws⟩, hp⟩ := walk_some hw
    have hv : (files.set p (some (.file (g b)))).at? p = some (.file (g b)) := at?_set_some _ hp
    have hg : Grows files (files.set p (some (.file (g b)))) {p} :=
      grows_file (fun n hn => ⟨b, Option.some.inj (hn.symm.trans hp)⟩) hv
    refine ⟨hn, p, b, hg, ?_, .inl hw⟩
    rw [walk_of_walks (isShort_of_walk hw) (hws.keeps hg.keeps), hv]
  · have hs := isShort_of_walk hw
    have hw' := hw
    rw [walk_eq hs] at hw'
    obtain ⟨hnone, hd⟩ := place_of_walkFrom hw' ⟨files, rfl⟩
    obtain ⟨d, s, entries, hp, hdir⟩ := hd rfl
    have hv : (files.set p (some (.file (g [])))).at? p = some (.file (g [])) := by
      subst hp
      exact at?_set_self _ hdir
    have hg : Grows files (files.set p (some (.file (g [])))) {p} :=
      grows_file (fun n hn => nomatch hnone.trans hn) hv
    obtain ⟨u, hws⟩ := walks_of_missing hw' ⟨files, rfl⟩ hg.keeps hv id
    refine ⟨hn, p, [], hg, ?_, .inr ⟨hw, rfl⟩⟩
    rw [walk_of_walks hs hws, hv]

theorem Walks.straight (h : Walks files fits k here (names.map .name) u p)
    (hl : ∀ m t, m ≠ [] → m <+: names → files.at? (here ++ m) ≠ some (.link t)) :
    p = here ++ names := by
  generalize hx : names.map Path.Step.name = xs at h
  induction h generalizing names with
  | stop => rw [List.map_eq_nil_iff.1 hx, List.append_nil]
  | root | up | stay =>
    obtain ⟨_, _, _, hs, _⟩ := List.map_eq_cons_iff.1 hx
    cases hs
  | @enter here s n _ _ _ _ _ _ _ _ ih =>
    obtain ⟨s, rest, rfl, hs, hrest⟩ := List.map_eq_cons_iff.1 hx
    cases hs
    rw [List.append_cons]
    refine ih (fun m t _ hm => ?_) hrest
    rw [List.append_assoc]
    exact hl (s :: m) t (List.cons_ne_nil s m) (List.cons_prefix_cons.2 ⟨rfl, hm⟩)
  | @follow here s t _ _ _ _ _ hs =>
    obtain ⟨s, rest, rfl, hn, -⟩ := List.map_eq_cons_iff.1 hx
    cases hn
    exact absurd hs (hl [s] t (List.cons_ne_nil s []) ⟨rest, rfl⟩)

theorem Canonical.before (h : Canonical files' fits p) (hk : Keeps files files')
    (hx : ∃ n, files.at? p = some n) : Canonical files fits p := by
  induction h with
  | root => exact .root
  | @child p s n' _ hs hf hn' hl ih =>
    obtain ⟨n, hn⟩ := hx
    refine .child (ih (at?_above hn (List.prefix_append p [s]))) hs hf hn ?_
    cases n with
    | link t =>
      rw [hk.link hn] at hn'
      exact absurd (Option.some.inj hn' ▸ trivial) hl
    | directory | file | socket => exact id

theorem LeadsTo.place (h : LeadsTo files names p) (hc : ".." ∉ names)
    (hw : walk files names = .ok ⟨q, some n⟩) : q = p := by
  rcases h with ⟨n', hn'⟩ | ⟨rfl, hl⟩
  · cases hn'.symm.trans hw
    rfl
  · obtain ⟨⟨u, hws⟩, -⟩ := walk_some hw
    rw [map_stepOf hc] at hws
    exact hws.straight fun m t _ hm => hl m t hm

theorem Grows.walk (hg : Grows files files' places) (hw : walk files names = .ok ⟨p, some n⟩) :
    ∃ n', FileTree.walk files' names = .ok ⟨p, some n'⟩ := by
  obtain ⟨⟨u, hws⟩, hp⟩ := walk_some hw
  obtain ⟨n', hn', -⟩ := hg.keeps p n hp
  refine ⟨n', ?_⟩
  rw [walk_of_walks (isShort_of_walk hw) (hws.keeps hg.keeps), hn']

theorem Grows.leadsTo (hg : Grows files files' places) (h : LeadsTo files names p) :
    LeadsTo files' names p := by
  rcases h with ⟨n, hn⟩ | ⟨rfl, hl⟩
  · exact .inl (hg.walk hn)
  · exact .inr ⟨rfl, fun m t hm ht => hl m t hm (hg.link m t ht)⟩

theorem Grows.walk_before (hg : Grows files files' places) (h : LeadsTo files names p)
    (hw : FileTree.walk files' names = .ok ⟨p, some v⟩) (hx : files.at? p = some n) :
    FileTree.walk files names = .ok ⟨p, some n⟩ := by
  rcases h with ⟨n', hn'⟩ | ⟨rfl, -⟩
  · rwa [← hx, (walk_some hn').2]
  · obtain ⟨⟨u, hws⟩, -⟩ := walk_some hw
    have hcan := (hws.canonical (plain_map names) .root).before hg.keeps ⟨n, hx⟩
    rw [walk_of_walks (isShort_of_walk hw) (hcan.walks (fun _ hf => hf) maxLinks), hx]

end FileTree

end Grapnel
