import Grapnel.Proofs.FileTree.Growth
import Grapnel.Proofs.Workspace.Operation
import Grapnel.Proofs.Workspace.Stability

namespace Grapnel

open Node FileTree

namespace Node

/-- What reading a node shows. -/
def content? : Node → Option (List UInt8)
  | .file c => some c
  | _ => none

end Node

theorem Disk.answers (disk : Disk) (names : List String) (bytes : List UInt8) :
    disk.taken names bytes = bytes ∧ disk.verdict names bytes = .ok () ∨
      ∃ k errno, disk names bytes = some (k, errno) ∧ disk.taken names bytes = bytes.take k ∧
        disk.verdict names bytes = .error (.system errno) := by
  rw [taken, verdict]
  cases disk names bytes with
  | none => exact .inl ⟨rfl, rfl⟩
  | some refusal => exact .inr ⟨refusal.1, refusal.2, rfl, rfl, rfl⟩

namespace FileTree

/-- The directories above what names lead to are made. -/
def makeParents (files : Node) (names : List String) : Except IoFault Node × Node :=
  if names = [] then (.ok files, files) else makeDirectories files names.dropLast

variable {files files' files₁ n : Node} {places : Set (List String)} {names p : List String}
  {c : List UInt8} {g : List UInt8 → List UInt8}

theorem makeParents_grows (files : Node) (names : List String) :
    Grows files (makeParents files names).2 ∅ := by
  rw [makeParents]
  split
  · exact .refl files ∅
  · exact makeDirectories_grows files _

theorem makeParents_found (hc : ".." ∉ names) (h : makeParents files names = (.ok files', files₁))
    (hw : walk files₁ names = .ok ⟨p, some n⟩) : files₁ = files := by
  rw [makeParents] at h
  split at h
  · cases h
    rfl
  · next hne =>
    obtain ⟨l, s, rfl⟩ := (List.eq_nil_or_concat' names).resolve_left hne
    rw [List.dropLast_concat] at h
    rcases makeDirectories_spec files (fun hm => hc (List.mem_append_left [s] hm)) with
      ⟨he, -⟩ | ⟨q, -, -, ha⟩
    · rw [h] at he
      exact he
    · rw [h] at ha
      obtain ⟨d, hd, -⟩ := (ha files' rfl).walk hc hw
      cases hd

theorem content?_eq_some : (find? files names).bind content? = some c ↔
    find? files names = some (.file c) := by
  rw [Option.bind_eq_some_iff]
  constructor
  · rintro ⟨n, hn, hc⟩
    cases n with
    | file =>
      cases hc
      exact hn
    | directory | link | socket => cases hc
  · exact fun h => ⟨_, h, rfl⟩

/-- Where the tree grows elsewhere, names show the same file as before. -/
theorem find?_grows (hg : Grows files files' places) (hp : p ∉ places)
    (h : LeadsTo files names p) (hc : ".." ∉ names) :
    find? files' names = some (.file c) ↔ find? files names = some (.file c) := by
  have hsame := hg.same p hp (.file c) rfl
  rw [find?_iff, find?_iff]
  refine and_congr_right fun _ => ⟨?_, ?_⟩
  · rintro ⟨q, hw⟩
    obtain rfl := (hg.leadsTo h).place hc hw
    exact ⟨q, hg.walk_before h hw (hsame.1 (walk_some hw).2)⟩
  · rintro ⟨q, hw⟩
    obtain rfl := h.place hc hw
    obtain ⟨n, hw'⟩ := hg.walk hw
    have hn := (walk_some hw').2.symm.trans (hsame.2 (walk_some hw).2)
    exact ⟨q, Option.some.inj hn ▸ hw'⟩

end FileTree

namespace Workspace

/-- Every link below the root leads to something, however many links are on the way. -/
def LinksLead (w : Workspace) (files : Node) : Prop :=
  ∀ p s t, w.root <+: p → files.at? (p ++ [s]) = some (.link t) →
    ∃ k u q, Walks files (fun _ => true) k p [.name s] u q

/-- What reading a path answers. -/
def reading (w : Workspace) (files : Node) (path : String) : Except WorkspaceFault (List UInt8) :=
  (outcome (w.read path) files).1

/-- A path leads to a place. -/
def Leads (w : Workspace) (files : Node) (path : String) (p : List String) : Prop :=
  ∃ names, w.resolve files path = .ok names ∧ LeadsTo files names p

/-- The content of the file at a path; where nothing is, it is empty. -/
inductive Holds (w : Workspace) (files : Node) (path : String) : List UInt8 → Prop where
  | file : w.reading files path = .ok c → Holds w files path c
  | missing : w.resolve files path = .ok names → find? files names = none → Holds w files path []

/-- Makes the directories above a file and writes bytes to it, after what is kept of it. -/
def edit (w : Workspace) (path : String) (keep : List UInt8 → List UInt8) (c : List UInt8) :
    FileWork Unit := do
  let names ← w.resolveCreatable path
  takeOver names (store w.disk (← get) names keep c)

/-- How writing to a file goes on. -/
inductive Edits (w : Workspace) (files : Node) (path : String) (keep : List UInt8 → List UInt8)
    (c : List UInt8) : Except WorkspaceFault Unit → Node → Prop where
  | unresolved : w.resolve files path = .error e → Edits w files path keep c (.error e) files
  | blocked : w.resolve files path = .ok names → makeParents files names = (.error fault, files₁) →
      Edits w files path keep c (.error (.io (Path.absolute names.dropLast) fault)) files₁
  | failed : w.resolve files path = .ok names → makeParents files names = (.ok files₂, files₁) →
      update files₁ names (fun b => keep b ++ w.disk.taken names c) = .error fault →
      Edits w files path keep c (.error (.io (Path.absolute names) fault)) files₁
  | opened : w.resolve files path = .ok names → makeParents files names = (.ok files₂, files₁) →
      update files₁ names (fun b => keep b ++ w.disk.taken names c) = .ok files' →
      Edits w files path keep c ((w.disk.verdict names c).mapError (.io (Path.absolute names))) files'

/-- The disk refuses the file at a path after so many bytes. -/
def Cuts (w : Workspace) (files : Node) (path : String) (c : List UInt8) (k : Nat)
    (e : WorkspaceFault) : Prop :=
  ∃ names errno, ∃ h : k < c.length, w.resolve files path = .ok names ∧
    w.disk names c = some (⟨k, h⟩, errno) ∧ e = .io (Path.absolute names) (.system errno)

variable {w : Workspace} {files files' : Node} {places : Set (List String)} {path path' : String}
  {names p q l r base : List String} {x : String} {c : List UInt8} {g keep : List UInt8 → List UInt8}
  {a : Except WorkspaceFault Unit} {e : WorkspaceFault}

theorem reading_eq (h : w.resolve files path = .ok names) : w.reading files path =
    ((find? files names).bind content?).elim (.error (.notFound path)) .ok := by
  simp only [reading, read, outcome_bind, outcome_get, outcome_lift, h]
  cases hf : FileTree.isFile files names with
  | true =>
    obtain ⟨hn, p, c, hw⟩ := isFile_iff.1 hf
    rw [content?_eq_some.2 (find?_iff.2 ⟨hn, p, hw⟩)]
    simp only [FileTree.read, hn, hw, if_true]
    rfl
  | false =>
    have hnone : (find? files names).bind content? = none := by
      by_contra hne
      obtain ⟨c, hc⟩ := Option.ne_none_iff_exists'.1 hne
      rw [FileTree.isFile, content?_eq_some.1 hc] at hf
      cases hf
    rw [hnone]
    rfl

theorem Splits.at?_new (h : Splits files names l r base) (hl : w.LinksLead files)
    (hg : Grows files files' places) (hb : w.root <+: base) (hx : [x] <+: r) (hup : x ≠ "..")
    (hq : canonicalize files' (l ++ [x]) = .ok q) : files.at? (base ++ [x]) = none := by
  obtain ⟨hn, u, hw⟩ := canonicalize_ok_iff.1 h.canonical
  obtain ⟨hnul, v, hv⟩ := canonicalize_ok_iff.1 hq
  have hnx := (hasNul_append.1 hnul).2
  have hlong := h.longest [x] hx (List.cons_ne_nil x [])
  have hend := hv.ends
  rw [map_stepOf_concat hup, (hw.keeps hg.keeps).walkFrom (.inl rfl)] at hend
  by_contra hne
  obtain ⟨n, hs⟩ := Option.ne_none_iff_exists'.1 hne
  have hlink := link_of_not_canonical h.canonical hup hlong hnx (fits_of_walkFrom hend).1 hs
  -- A link that is there leads somewhere, so that it fails for its length alone, now as before.
  cases n with
  | link t =>
    obtain ⟨k, u', q', ht⟩ := hl base x t hb hs
    rcases ht.alike hg.keeps isShort u with ⟨v', hv'⟩ | ⟨-, e, he⟩
    · refine hlong q' (canonicalize_ok_iff.2 ⟨hasNul_append.2 ⟨hn, hnx⟩, v', ?_⟩)
      rw [map_stepOf_concat hup]
      exact hw.append hv'
    · cases he.symm.trans hend
  | directory | file | socket => exact hlink

/-- What is added below the longest canonical part is no link, so that the names after this part stay
as they are. -/
theorem resolve_grows (hroot : canonicalize files w.root = .ok w.root) (hl : w.LinksLead files)
    (hg : Grows files files' places) (h : w.resolve files path = .ok names) :
    w.resolve files' path = .ok names := by
  obtain ⟨l, r, base, hs, rfl, hlr, _, hb⟩ := resolve_ok hroot h
  obtain ⟨l', r', base', hs'⟩ := exists_splits files' (applySteps w.root (Path.steps path))
  suffices hbase : base' ++ r' = base ++ r by
    rw [hs'.resolve, hbase, if_pos (hb.trans (List.prefix_append ..))]
  obtain ⟨hn, u, hw⟩ := canonicalize_ok_iff.1 hs.canonical
  have hw' := hw.keeps hg.keeps
  have hcl : canonicalize files' l = .ok base := canonicalize_ok_iff.2 ⟨hn, u, hw'⟩
  obtain ⟨d, rfl⟩ := hs'.above ⟨r, hs.names.symm⟩ hcl
  have hr : d ++ r' = r := by
    rw [← List.append_cancel_left_eq l, ← List.append_assoc, ← hs'.names, hs.names]
  subst hr
  have hup (s : String) (hs : s ∈ d) : s ≠ ".." := fun he =>
    hlr (he ▸ List.mem_append_right l (List.mem_append_left r' hs))
  suffices hd : base' = base ++ d by rw [hd, List.append_assoc]
  obtain ⟨-, u', hw''⟩ := canonicalize_ok_iff.1 hs'.canonical
  rw [List.map_append, map_stepOf fun hm => hup _ hm rfl] at hw''
  obtain ⟨v, hd⟩ := hw'.after hw''
  -- Beyond `l` the second tree has only what was added, and no link is added.
  refine hd.straight fun m t hm hmd ht => ?_
  obtain ⟨x, m, rfl⟩ := List.exists_cons_of_ne_nil hm
  have hxd : [x] <+: d := (List.prefix_append [x] m).trans hmd
  obtain ⟨e, he⟩ := (List.prefix_append_right_inj l).2 hxd
  obtain ⟨q, hq⟩ := canonicalize_above (he ▸ hs'.canonical)
  have hnone := hs.at?_new hl hg hb (hxd.trans (List.prefix_append d r'))
    (hup x (hxd.subset (List.mem_singleton_self x))) hq
  obtain ⟨n, hn⟩ := at?_above (hg.link _ t ht)
    ((List.prefix_append_right_inj base).2 (List.prefix_append [x] m))
  cases hnone.symm.trans hn

theorem outcome_resolveCreatable (h : w.resolve files path = .ok names) :
    outcome (w.resolveCreatable path) files =
      match makeParents files names with
      | (.ok _, files₁) => (.ok names, files₁)
      | (.error fault, files₁) =>
        (.error (.io (Path.absolute names.dropLast) fault), files₁) := by
  by_cases hn : names = []
  · subst hn
    simp only [resolveCreatable, outcome_bind, outcome_get, outcome_lift, h, makeParents]
    rfl
  · rw [makeParents, if_neg hn]
    exact resolveCreatable_eq h hn

theorem edits_of_outcome (h : outcome (w.edit path keep c) files = (a, files')) :
    w.Edits files path keep c a files' := by
  cases hr : w.resolve files path with
  | error e =>
    simp only [edit, resolveCreatable, outcome_bind, outcome_get, outcome_lift, hr] at h
    cases h
    exact .unresolved hr
  | ok names =>
    simp only [edit, outcome_bind, outcome_resolveCreatable hr] at h
    rcases hm : makeParents files names with ⟨r, files₁⟩
    rw [hm] at h
    cases r with
    | error fault =>
      cases h
      exact .blocked hr hm
    | ok =>
      simp only [outcome_get, store] at h
      cases hu : update files₁ names fun b => keep b ++ w.disk.taken names c with
      | error =>
        rw [hu] at h
        cases h
        exact .failed hr hm hu
      | ok files₃ =>
        rw [hu, outcome_takeOver] at h
        have hopened := Edits.opened hr hm hu
        generalize w.disk.verdict names c = verdict at h hopened
        cases verdict <;> cases h <;> exact hopened

theorem reading_grows (hroot : canonicalize files w.root = .ok w.root) (hl : w.LinksLead files)
    (hg : Grows files files' places) (hp : p ∉ places) (h : w.Leads files path p) :
    w.reading files' path = w.reading files path := by
  obtain ⟨names, hr, hnames⟩ := h
  obtain ⟨_, _, _, _, _, _, hc, _⟩ := resolve_ok hroot hr
  rw [reading_eq hr, reading_eq (resolve_grows hroot hl hg hr)]
  congr 1
  ext c
  rw [content?_eq_some, content?_eq_some, find?_grows hg hp hnames hc]

/-- A file was written: its path shows the content, and what led to another place than where the file
is shows the same as before. -/
structure Written (w : Workspace) (files files' : Node) (path : String) (c : List UInt8) : Prop where
  content : w.reading files' path = .ok c
  isFile : w.isFile files' path = true
  elsewhere : ∃ p, w.Leads files' path p ∧ files'.at? p = some (.file c) ∧
    ∀ path' q, w.Leads files path' q → q ≠ p → w.reading files' path' = w.reading files path'

/-- A file that was opened is where its path leads, and nothing else changed but directories. -/
theorem written_of_update {files₁ files₂ : Node} (hr : w.resolve files path = .ok names)
    (hm : makeParents files names = (.ok files₂, files₁)) (hu : update files₁ names g = .ok files')
    (hroot : canonicalize files w.root = .ok w.root) (hl : w.LinksLead files) :
    ∃ b, w.Holds files path b ∧ w.Written files files' path (g b) := by
  have hparents : Grows files files₁ ∅ := by
    have hg := makeParents_grows files names
    rwa [hm] at hg
  obtain ⟨hn, p, b, hg, hw', hw⟩ := update_grows hu
  have hall : Grows files files' {p} := hparents.mono.trans hg
  have hr' := resolve_grows hroot hl hall hr
  have hf := find?_iff.2 ⟨hn, p, hw'⟩
  refine ⟨b, ?_, ?_, ?_, p, ⟨names, hr', .inl ⟨_, hw'⟩⟩, (walk_some hw').2, fun path' q hq hne => ?_⟩
  · rcases hw with hw | ⟨hw, rfl⟩
    -- Where directories had to be made there was no file before.
    · obtain ⟨_, _, _, _, _, _, hc, _⟩ := resolve_ok hroot hr
      cases makeParents_found hc hm hw
      refine .file ?_
      rw [reading_eq hr, content?_eq_some.2 (find?_iff.2 ⟨hn, p, hw⟩)]
      rfl
    · refine .missing hr (Option.eq_none_iff_forall_ne_some.2 fun n hn' => ?_)
      obtain ⟨-, q, hq⟩ := find?_iff.1 hn'
      obtain ⟨n', hq'⟩ := hparents.walk hq
      cases hw.symm.trans hq'
  · rw [reading_eq hr', content?_eq_some.2 hf]
    rfl
  · simp only [isFile, hr', FileTree.isFile, hf]
    rfl
  · exact reading_grows hroot hl hall hne hq

theorem Edits.of_ok (h : w.Edits files path keep c a files') (ha : a = .ok ⟨⟩)
    (hroot : canonicalize files w.root = .ok w.root) (hl : w.LinksLead files) :
    ∃ b, w.Holds files path b ∧ w.Written files files' path (keep b ++ c) := by
  cases h with
  | unresolved | blocked | failed => cases ha
  | @opened names _ _ _ hr hm hu =>
    rcases w.disk.answers names c with ⟨htaken, -⟩ | ⟨k, errno, -, -, hverdict⟩
    · rw [htaken] at hu
      exact written_of_update hr hm hu hroot hl
    · rw [hverdict] at ha
      cases ha

/-- No file is changed, and every path reads as before. -/
structure Untouched (w : Workspace) (files files' : Node) : Prop where
  nodes : ∀ q n, n.isDirectory = false → (files'.at? q = some n ↔ files.at? q = some n)
  readings : ∀ path q, w.Leads files path q → w.reading files' path = w.reading files path

theorem Edits.of_error (h : w.Edits files path keep c a files') (ha : a = .error e)
    (hroot : canonicalize files w.root = .ok w.root) (hl : w.LinksLead files) :
    w.Untouched files files' ∨ ∃ k b, w.Cuts files path c k e ∧ w.Holds files path b ∧
      w.Written files files' path (keep b ++ c.take k) := by
  have huntouched (hg : Grows files files' ∅) : w.Untouched files files' :=
    ⟨fun q => hg.same q (Set.notMem_empty q),
      fun path' q => reading_grows hroot hl hg (Set.notMem_empty q)⟩
  cases h with
  | unresolved => exact .inl (huntouched (.refl files ∅))
  | @blocked names _ _ _ hm | @failed names _ _ _ _ hm =>
    have hg := makeParents_grows files names
    rw [hm] at hg
    exact .inl (huntouched hg)
  | @opened names _ _ _ hr hm hu =>
    rcases w.disk.answers names c with ⟨-, hverdict⟩ | ⟨k, errno, hd, htaken, hverdict⟩
    · rw [hverdict] at ha
      cases ha
    · rw [htaken] at hu
      rw [hverdict] at ha
      obtain ⟨b, hb, hwritten⟩ := written_of_update hr hm hu hroot hl
      exact .inr ⟨k, b, ⟨names, errno, k.isLt, hr, hd, (Except.error.inj ha).symm⟩, hb, hwritten⟩

/-- Files hold what was written. What was written is read from the same path, what was appended comes
after what was there before, and a path that led to another place reads as before. Where writing is
refused nothing but directories is changed, and every path reads as before, unless it is the disk that
refuses: then the file was opened already, and it holds as many of the bytes as the disk took. -/
theorem files_hold (w : Workspace) (files : Node) (path : String) (c : List UInt8)
    (hroot : canonicalize files w.root = .ok w.root) (hl : w.LinksLead files) :
    (∀ files', outcome (w.write path c) files = (.ok ⟨⟩, files') →
      w.Written files files' path c) ∧
    (∀ files', outcome (w.append path c) files = (.ok ⟨⟩, files') →
      ∃ b, w.Holds files path b ∧ w.Written files files' path (b ++ c)) ∧
    (∀ e files', outcome (w.write path c) files = (.error e, files') → w.Untouched files files' ∨
      ∃ k, w.Cuts files path c k e ∧ w.Written files files' path (c.take k)) ∧
    ∀ e files', outcome (w.append path c) files = (.error e, files') → w.Untouched files files' ∨
      ∃ k b, w.Cuts files path c k e ∧ w.Holds files path b ∧
        w.Written files files' path (b ++ c.take k) := by
  have hwrite : w.write path c = w.edit path (fun _ => []) c := rfl
  have happend : w.append path c = w.edit path id c := rfl
  rw [hwrite, happend]
  refine ⟨fun files' h => ?_, fun files' h => (edits_of_outcome h).of_ok rfl hroot hl,
    fun e files' h => ?_, fun e files' h => (edits_of_outcome h).of_error rfl hroot hl⟩
  · obtain ⟨_, _, hwritten⟩ := (edits_of_outcome h).of_ok rfl hroot hl
    exact hwritten
  · rcases (edits_of_outcome h).of_error rfl hroot hl with huntouched | ⟨k, _, hcut, _, hwritten⟩
    · exact .inl huntouched
    · exact .inr ⟨k, hcut, hwritten⟩

/-- A workspace with a folder, a link to it and a file. -/
def shelf : Node := .directory
  [("ws", .directory [("d", .directory []), ("f", .file [1]), ("l", .link "d")])]

/-- The same with a file in a new folder. -/
def fullShelf : Node := .directory
  [("ws", .directory
    [("d", .directory [("n", .directory [("g", .file [7])])]), ("f", .file [1]), ("l", .link "d")])]

theorem shelf_root : canonicalize shelf ["ws"] = .ok ["ws"] := by cbv

theorem shelf_linksLead (disk : Disk) : LinksLead ⟨["ws"], disk⟩ shelf := by
  rintro _ s t ⟨p, rfl⟩ h
  have ht : Path.linkSteps "d" = [.name "d"] := by cbv
  have hin : (Node.directory [("d", .directory []), ("f", .file [1]), ("l", .link "d")]).at?
      (p ++ [s]) = some (.link t) := h
  cases p with
  | nil =>
    obtain ⟨entries, hd, hs⟩ := directory_of_child hin
    cases hd
    have hmem := mem_of_lookup hs
    simp only [List.mem_cons, Prod.mk.injEq, reduceCtorEq, and_false, Node.link.injEq,
      List.not_mem_nil, or_false, false_or] at hmem
    obtain ⟨rfl, rfl⟩ := hmem
    exact ⟨1, 0, ["ws", "d"],
      .follow ⟨by decide, rfl⟩ rfl (ht ▸ .enter ⟨by decide, rfl⟩ rfl id .stop)⟩
  | cons x p =>
    -- There is nothing in what is in the workspace.
    rw [List.cons_append, ← List.singleton_append, at?_beyond (fun n hn y => ?_) (by simp)] at hin
    · cases hin
    · obtain ⟨entries, hd, hs⟩ := directory_of_child (p := []) hn
      cases hd
      have hmem := mem_of_lookup hs
      simp only [List.mem_cons, Prod.mk.injEq, List.not_mem_nil, or_false] at hmem
      rcases hmem with ⟨-, rfl⟩ | ⟨-, rfl⟩ | ⟨-, rfl⟩ <;> rfl

theorem files_hold_shelf : Written ⟨["ws"], .sound⟩ shelf fullShelf "l/n/g" [7] := by
  have hsteps : Path.steps "l/n/g" = [.name "l", .name "n", .name "g"] := by
    rw [Path.steps, Path.names, Path.splitOn_slash]
    cbv
  have hr : Workspace.resolve ⟨["ws"], .sound⟩ shelf "l/n/g" = .ok ["ws", "d", "n", "g"] := by
    rw [Workspace.resolve, hsteps]
    cbv
  have hwrite : outcome (Workspace.write ⟨["ws"], .sound⟩ "l/n/g" [7]) shelf =
      (.ok ⟨⟩, fullShelf) := by
    rw [Workspace.write, outcome_bind, outcome_resolveCreatable hr]
    cbv
  exact (files_hold ⟨["ws"], .sound⟩ shelf "l/n/g" [7] shelf_root (shelf_linksLead .sound)).1
    fullShelf hwrite

/-- The same as the shelf, with the file emptied. -/
def emptiedShelf : Node := .directory
  [("ws", .directory [("d", .directory []), ("f", .file []), ("l", .link "d")])]

/-- A write that the disk refuses has emptied the file. -/
theorem write_emptied :
    canonicalize shelf ["ws"] = .ok ["ws"] ∧ LinksLead ⟨["ws"], .full⟩ shelf ∧
      outcome (Workspace.write ⟨["ws"], .full⟩ "f" [7]) shelf =
        (.error (.io "/ws/f" (.system .noSpace)), emptiedShelf) ∧
      Workspace.reading ⟨["ws"], .full⟩ shelf "f" = .ok [1] ∧
      Workspace.reading ⟨["ws"], .full⟩ emptiedShelf "f" = .ok [] := by
  have hsteps : Path.steps "f" = [.name "f"] := by
    rw [Path.steps, Path.names, Path.splitOn_slash]
    cbv
  have hbefore : Workspace.resolve ⟨["ws"], .full⟩ shelf "f" = .ok ["ws", "f"] := by
    rw [Workspace.resolve, hsteps]
    cbv
  have hafter : Workspace.resolve ⟨["ws"], .full⟩ emptiedShelf "f" = .ok ["ws", "f"] := by
    rw [Workspace.resolve, hsteps]
    cbv
  refine ⟨shelf_root, shelf_linksLead .full, ?_, ?_, ?_⟩
  · rw [Workspace.write, outcome_bind, outcome_resolveCreatable hbefore]
    cbv
  · rw [reading_eq hbefore]
    cbv
  · rw [reading_eq hafter]
    cbv

end Workspace

end Grapnel
