import Grapnel.Proofs.Workspace.Operation
import Grapnel.Proofs.Workspace.Resolution

namespace Grapnel

open Node FileTree

namespace Workspace

/-- The second tree has the same below the root, and elsewhere whatever there is in the first, with
any content, and more. -/
structure Extends (w : Workspace) (files files' : Node) : Prop where
  inside : ∀ q, w.root <+: q → files'.at? q = files.at? q
  outside : Keeps files files'

/-- Nothing outside the root is created, changed or deleted, and no answer shows what is there. -/
structure Confined (w : Workspace) (files : Node) (path : String) (op : Operation) : Prop where
  frame : ∀ q, ¬ w.root <+: q →
    ((outcome (w.perform path op) files).2.at? q).map shape = (files.at? q).map shape
  secret : ∀ files', w.Extends files files' → ∀ a, a ≠ .done →
    (outcome (w.perform path op) files).1 = .ok a → (outcome (w.perform path op) files').1 = .ok a

/-- The operation acts outside the root. -/
def Leaks (w : Workspace) (files : Node) (path : String) (op : Operation) : Prop :=
  ∃ names p, w.resolve files path = .ok names ∧ op.Acts w files names p ∧ ¬ w.root <+: p

/-- What is answered of a path that leads to something. -/
inductive Shows (w : Workspace) (names : List String) : Operation → Node → Answer → Prop where
  | read : Shows w names .read (.file c) (.content c)
  | list : Shows w names .list (.directory entries) (.entries
      (((entries.map (·.1)).map fun name => w.relative (names ++ [name])).mergeSort
        fun a b => a ≤ b))

variable {w : Workspace} {files files' n : Node} {path : String} {names p q : List String}
  {op : Operation} {c : List UInt8}

theorem acts_inside (hs : Splits files (applySteps w.root (Path.steps path)) l r base)
    (hst : Straight files base r) (hlr : ".." ∉ l ++ r) (hb : w.root <+: base)
    (h : op.Acts w files (base ++ r) p) : w.root <+: p := by
  have hwalk {f : Bool} {m : List String} {place : Place} (hm : m <+: base ++ r)
      (hn : hasNul m = false) (hsh : isShort m = true)
      (hw : walkFrom files (fun _ => true) maxLinks [] f (m.map Path.stepOf) = .ok place) :=
    hs.walk_straight hst hlr hm hn hsh hw
  have hroot : w.root <+: base ++ r := hb.trans (List.prefix_append ..)
  have hfull {place : Place} (hn : hasNul (base ++ r) = false)
      (hw : walk files (base ++ r) = .ok place) : w.root <+: place.names := by
    have hsh := isShort_of_walk hw
    rw [walk_eq hsh] at hw
    rw [(hwalk (List.prefix_refl _) hn hsh hw).1]
    exact hroot
  have hshort {place : Place} (hn : hasNul (base ++ r) = false)
      (hw : walkShort files (base ++ r) = .ok place) : w.root <+: place.names := by
    have hsh := isShort_of_walkShort hw
    rw [walkShort_eq hsh] at hw
    rw [(hwalk (List.prefix_refl _) hn hsh hw).1]
    exact hroot
  have hmakes {names : List String} (hp : names <+: base ++ r) (hm : Makes files names p) :
      w.root <+: p := by
    obtain ⟨m, hmn, hw⟩ := hm.missing
    have hsh := isShort_of_walkShort hw
    rw [walkShort_eq hsh] at hw
    obtain ⟨rfl, hbm⟩ : p = m ∧ (none = none → base <+: m) :=
      hwalk (hmn.trans hp) (hasNul_above hm.noNul hmn) hsh hw
    exact hb.trans (hbm rfl)
  cases h with
  | read hn hw => exact hfull hn hw
  | list hn hw => exact hfull hn hw
  | makeFolder hm => exact hmakes (List.prefix_refl _) hm
  | parents _ hm => exact hmakes (List.dropLast_prefix _) hm
  | create _ hn hw => exact hfull hn hw
  | change _ hn hw => exact hfull hn hw
  | deleteFile hf hw => exact hshort (isFile_iff.1 hf).1 hw
  | deleteFolder _ hf hw => exact hshort (isDirectory_iff.1 hf).1 hw

theorem extends_content (hroot : ∃ n, files.at? w.root = some n) (hp : ¬ w.root <+: p)
    (hf : files.at? p = some (.file c)) (c' : List UInt8) :
    w.Extends files (files.set p (some (.file c'))) := by
  have hleaf {q : List String} {n : Node} (hq : files.at? q = some n) (hpq : p <+: q) : q = p := by
    obtain ⟨d, rfl⟩ := hpq
    cases d with
    | nil => exact List.append_nil p
    | cons x d =>
      rw [at?_append, hf] at hq
      cases hq
  constructor
  · intro q hq
    refine at?_set_apart (fun hpq => ?_) fun hqp => hp (hq.trans hqp)
    rcases List.prefix_or_prefix_of_prefix hq hpq with h | h
    · exact hp h
    · obtain ⟨n, hn⟩ := hroot
      exact hp (hleaf hn h ▸ List.prefix_refl _)
  · intro q n hq
    by_cases hpq : p <+: q
    · cases hleaf hq hpq
      rw [hf] at hq
      cases hq
      exact ⟨_, at?_set_some _ hf, rfl⟩
    · have hs : ((files.set p (some (.file c'))).at? q).map shape = (files.at? q).map shape :=
        shape_set hpq
      rw [hq] at hs
      obtain ⟨n', hn', hs⟩ := Option.map_eq_some_iff.1 hs
      exact ⟨n', hn', kind_of_shape hs⟩

theorem extends_entry (hroot : ∃ n, files.at? w.root = some n) (hp : ¬ w.root <+: p)
    (hx : files.at? (p ++ [x]) = none) (v : Node) :
    w.Extends files (files.set (p ++ [x]) (some v)) := by
  have hr : ¬ w.root <+: p ++ [x] := by
    intro h
    rcases List.prefix_concat_iff.1 h with h | h
    · obtain ⟨n, hn⟩ := hroot
      rw [h, hx] at hn
      cases hn
    · exact hp h
  refine ⟨fun q hq => at?_set_apart (fun hpq => ?_) fun hqp => hr (hq.trans hqp), keeps_set hx⟩
  rcases List.prefix_or_prefix_of_prefix hq hpq with h | h
  · exact hr h
  · obtain ⟨n, hn⟩ := hroot
    obtain ⟨n', hn'⟩ := at?_above hn h
    rw [hx] at hn'
    cases hn'

theorem perform_shows (h : w.resolve files path = .ok names) (hn : hasNul names = false)
    (hw : walk files names = .ok ⟨p, some n⟩) (hs : Shows w names op n a) :
    (outcome (w.perform path op) files).1 = .ok a := by
  cases hs with
  | @read c =>
    rw [perform_read h, isFile_iff.2 ⟨hn, p, c, hw⟩, FileTree.read, hn, hw]
    rfl
  | @list entries =>
    rw [perform_list h, isDirectory_iff.2 ⟨hn, p, entries, hw⟩, FileTree.list, hn, hw]
    rfl

theorem shows_of_perform (h : (outcome (w.perform path op) files).1 = .ok a) (ha : a ≠ .done) :
    ∃ names p n, w.resolve files path = .ok names ∧ hasNul names = false ∧
      walk files names = .ok ⟨p, some n⟩ ∧ Shows w names op n a ∧ op.Acts w files names p := by
  cases hr : w.resolve files path with
  | error e =>
    rw [perform_refused hr] at h
    cases h
  | ok names =>
    rcases perform_done h ha with rfl | rfl
    · cases hf : FileTree.isFile files names with
      | false =>
        rw [perform_read hr, hf] at h
        cases h
      | true =>
        obtain ⟨hn, p, c, hw⟩ := isFile_iff.1 hf
        have hp := perform_shows hr hn hw .read
        rw [hp] at h
        cases h
        exact ⟨names, p, _, rfl, hn, hw, .read, .read hn hw⟩
    · cases hf : FileTree.isDirectory files names with
      | false =>
        rw [perform_list hr, hf] at h
        cases h
      | true =>
        obtain ⟨hn, p, entries, hw⟩ := isDirectory_iff.1 hf
        have hp := perform_shows hr hn hw .list
        rw [hp] at h
        cases h
        exact ⟨names, p, _, rfl, hn, hw, .list, .list hn hw⟩

/-- In a tree with more in it the same path shows what is at the same place. -/
theorem shows_keeps (hroot : canonicalize files w.root = .ok w.root)
    (h : w.resolve files path = .ok names) (hn : hasNul names = false)
    (hw : walk files names = .ok ⟨p, some n⟩) (hk : Keeps files files')
    (hp : files'.at? p = some m) (hs : Shows w names op m a) :
    (outcome (w.perform path op) files').1 = .ok a := by
  obtain ⟨u, hws⟩ := (walk_some hw).1
  have hw' : walk files' names = .ok ⟨p, some m⟩ := by
    rw [walk_of_walks (isShort_of_walk hw) (hws.keeps hk), hp]
  exact perform_shows (resolve_keeps hroot h hn hws hk) hn hw' hs

theorem confined_of_not_leaks (hroot : canonicalize files w.root = .ok w.root)
    (h : ¬ w.Leaks files path op) : w.Confined files path op where
  frame q hq := by
    cases hr : w.resolve files path with
    | error e => rw [perform_refused hr]
    | ok names =>
      obtain ⟨l, r, base, _, rfl, _, hc, hb⟩ := resolve_ok hroot hr
      have hne : base ++ r ≠ [] := by
        intro he
        have hw : w.root = [] := List.prefix_nil.1 (he ▸ hb.trans (List.prefix_append ..))
        exact hq (hw ▸ List.nil_prefix)
      by_cases hrd : op = .read
      · rw [hrd, perform_read hr]
      by_cases hls : op = .list
      · rw [hls, perform_list hr]
      cases effect_perform hr hc hne hrd hls with
      | none he => rw [he]
      | @one p ha _ hch =>
        have hp : w.root <+: p := by_contra fun hp => h ⟨_, p, hr, ha, hp⟩
        exact hch.elsewhere q fun hpq => hq (hp.trans hpq)
  secret files' hx a ha hok := by
    obtain ⟨names, p, n, hr, hn, hw, hs, hact⟩ := shows_of_perform hok ha
    have hp : w.root <+: p := by_contra fun hp => h ⟨_, p, hr, hact, hp⟩
    exact shows_keeps hroot hr hn hw hx.outside ((hx.inside p hp).trans (walk_some hw).2) hs

theorem not_confined_of_leaks (hroot : canonicalize files w.root = .ok w.root)
    (h : w.Leaks files path op) : ¬ w.Confined files path op := by
  intro hcon
  obtain ⟨names, p, hr, ha, hp⟩ := h
  obtain ⟨l, r, base, _, rfl, _, hc, hb⟩ := resolve_ok hroot hr
  have hne : base ++ r ≠ [] := by
    intro he
    have hw : w.root = [] := List.prefix_nil.1 (he ▸ hb.trans (List.prefix_append ..))
    exact hp (hw ▸ List.nil_prefix)
  have hex : ∃ n, files.at? w.root = some n :=
    (canonical_of_canonicalize hroot).exists_node.imp fun _ h => h.1
  have hmut (hrd : op ≠ .read) (hls : op ≠ .list) : False := by
    cases effect_perform hr hc hne hrd hls with
    | none _ hno => exact hno p ha
    | one _ huniq hch =>
      cases huniq p ha
      exact hch.here (hcon.frame p hp)
  cases ha with
  | @read _ c hn hw =>
    have hf := (walk_some hw).2
    have hx := extends_content hex hp hf (c ++ [0])
    have hs := shows_keeps hroot hr hn hw hx.outside (at?_set_some _ hf) .read
    have hok : (outcome (w.perform path .read) files).1 = .ok (.content c) :=
      perform_shows hr hn hw .read
    rw [hcon.secret _ hx (.content c) nofun hok] at hs
    have hl := congrArg List.length (Answer.content.inj (Except.ok.inj hs))
    simp at hl
  | @list _ entries hn hw =>
    obtain ⟨x, hx⟩ := Infinite.exists_notMem_finset (entries.map (·.1)).toFinset
    rw [List.mem_toFinset] at hx
    have hd := (walk_some hw).2
    have hnone : files.at? (p ++ [x]) = none :=
      (at?_directory hd).trans (List.lookup_eq_none_iff.2 fun e he =>
        bne_iff_ne.2 fun h => hx (List.mem_map.2 ⟨e, he, h.symm⟩))
    have hext := extends_entry hex hp hnone (.file [])
    have hs := shows_keeps hroot hr hn hw hext.outside (set_parent _ hd) .list
    have hok := perform_shows hr hn hw .list
    rw [hcon.secret _ hext (.entries _) nofun hok, setEntry_new _ hx] at hs
    have hl := congrArg List.length (Answer.entries.inj (Except.ok.inj hs))
    simp at hl
  | makeFolder | deleteFile | deleteFolder => exact hmut nofun nofun
  | parents he | create he | change he =>
    exact hmut (fun h => nomatch h ▸ he) (fun h => nomatch h ▸ he)

/-- An operation is confined just when the calls that follow the resolution of its path stay below
the root. They leave it only through a link, one that is there when the path is resolved and cannot
be made canonical. -/
theorem confined_iff (w : Workspace) (files : Node) (path : String) (op : Operation)
    (hroot : canonicalize files w.root = .ok w.root) :
    (w.Confined files path op ↔ ¬ w.Leaks files path op) ∧
    (w.Leaks files path op → ∃ l x rest base target,
      applySteps w.root (Path.steps path) = l ++ x :: rest ∧
      canonicalize files l = .ok base ∧ w.root <+: base ∧
      files.at? (base ++ [x]) = some (.link target) ∧
      ∀ names, canonicalize files (l ++ [x]) ≠ .ok names) := by
  refine ⟨⟨fun h hl => not_confined_of_leaks hroot hl h, confined_of_not_leaks hroot⟩, ?_⟩
  rintro ⟨names, p, hr, ha, hp⟩
  obtain ⟨l, r, base, hs, rfl, hlr, _, hb⟩ := resolve_ok hroot hr
  have hst : ¬ Straight files base r := fun hst => hp (acts_inside hs hst hlr hb ha)
  simp only [Straight, not_forall, not_not] at hst
  obtain ⟨x, hx, n, hn, hl⟩ := hst
  have hlong := hs.longest [x] hx (List.cons_ne_nil _ _)
  obtain ⟨rest, rfl⟩ := hx
  cases n with
  | link target => exact ⟨l, x, rest, base, target, hs.names, hs.canonical, hb, hn, hlong⟩
  | file | directory | socket => exact hl.elim

/-- A workspace with a link to a file outside it that does not exist yet. -/
def strayLink : Node := .directory [("ws", .directory [("l", .link "/o")])]

theorem strayLink_root : canonicalize strayLink ["ws"] = .ok ["ws"] :=
  canonicalize_ok_iff.2 ⟨by decide, maxLinks, .enter ⟨by decide, by decide⟩ rfl id .stop⟩

theorem strayLink_walkFrom (fits : List String → Bool) (hw : Fits fits [] "ws")
    (hl : Fits fits ["ws"] "l") (ho : Fits fits [] "o") :
    walkFrom strayLink fits maxLinks [] true [.name "ws", .name "l"] = .ok ⟨["o"], none⟩ := by
  have ht : Path.linkSteps "/o" = [.root, .name "o"] := by cbv
  rw [walkFrom_enter hw rfl id]
  change walkFrom strayLink fits (39 + 1) ["ws"] true [.name "l"] = _
  rw [walkFrom_follow hl rfl (.inl rfl), ht, List.cons_append, walkFrom]
  exact walkFrom_name rfl ho

theorem strayLink_resolve : Workspace.resolve ⟨["ws"], .sound⟩ strayLink "l" = .ok ["ws", "l"] := by
  have hp : Path.steps "l" = [.name "l"] := by cbv
  have hs : Splits strayLink (applySteps ["ws"] (Path.steps "l")) ["ws"] ["l"] ["ws"] := by
    refine ⟨by rw [hp]; rfl, strayLink_root, fun r' hr hne q hq => ?_⟩
    obtain rfl : r' = ["l"] :=
      hr.eq_of_length_le (List.length_pos_iff.2 hne)
    have hw := strayLink_walkFrom isShort ⟨by decide, by decide⟩ ⟨by decide, by decide⟩
      ⟨by decide, by decide⟩
    obtain ⟨_, u, hq⟩ := canonicalize_ok_iff.1 hq
    have he : walkFrom strayLink isShort maxLinks [] true [.name "ws", .name "l"] = _ := hq.ends
    obtain ⟨n, hn⟩ := hq.exists_node ⟨strayLink, rfl⟩
    rw [hw, hn] at he
    cases he
  exact resolve_eq_ok.2 ⟨hs.canonicalPart [], ⟨["l"], rfl⟩⟩

theorem confined_iff_strayLink :
    ¬ Workspace.Confined ⟨["ws"], .sound⟩ strayLink "l" (.write [1]) := by
  have hw : walk strayLink ["ws", "l"] = .ok ⟨["o"], none⟩ :=
    strayLink_walkFrom _ ⟨by decide, rfl⟩ ⟨by decide, rfl⟩ ⟨by decide, rfl⟩
  refine fun h => (confined_iff ⟨["ws"], .sound⟩ strayLink "l" (.write [1]) strayLink_root).1.1 h ?_
  exact ⟨["ws", "l"], ["o"], strayLink_resolve, .create rfl (by decide) hw, by decide⟩

end Workspace

end Grapnel
