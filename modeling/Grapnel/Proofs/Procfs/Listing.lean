import Mathlib
import Grapnel.Procfs.Source
import Grapnel.Proofs.FileTree.Canonical
import Grapnel.Proofs.Process.MappingTable
import Grapnel.Proofs.Process.Record

namespace Grapnel

namespace FileTree

variable {files : Node} {path : List String} {bytes : List UInt8}

theorem read_canonical (h : Canonical files (fun _ => true) path) (hnul : hasNul path = false)
    (hshort : isShort path = true) (hfile : files.at? path = some (.file bytes)) :
    read files path = .ok bytes := by
  rw [read, hnul, if_neg Bool.false_ne_true, walk_eq hshort, h.walkFrom (fun _ => id), hfile]

theorem list_canonical {entries : List (String × Node)} (h : Canonical files (fun _ => true) path)
    (hnul : hasNul path = false) (hshort : isShort path = true)
    (hdirectory : files.at? path = some (.directory entries)) :
    list files path = .ok (entries.map (·.1)) := by
  rw [list, hnul, if_neg Bool.false_ne_true, walk_eq hshort, h.walkFrom (fun _ => id), hdirectory]

theorem readText_ok {cs : List Char} (h : read files path = .ok (Utf8.encode cs)) :
    readText files path = .ok (.ofList cs) := by
  rw [readText, h]
  dsimp only [bind, Except.bind]
  rw [Utf8.decode_encode]
  rfl

theorem readText_error (h : read files path = .ok bytes) (hbytes : ¬ Utf8.IsText bytes) :
    readText files path = .error .notText := by
  obtain ⟨fault, hfault⟩ := Utf8.decode_error hbytes
  rw [readText, h]
  dsimp only [bind, Except.bind]
  rw [hfault]
  rfl

end FileTree

namespace Procfs

open Text Utf8

/-- A line of a mapping table in the kernel's form; the path in it may be any bytes of one line. -/
structure Mapping where
  layout : Maps.Layout
  region : Region
  order : region.start < region.stop
  access : region.access.IsShown
  tail : List UInt8
  tail_open : tail = [] ∨ ∃ more, tail = 32 :: more
  one_line : 10 ∉ tail

namespace Mapping

variable (m : Mapping)

def line : List UInt8 := encode (m.layout.head m.region) ++ m.tail

/-- The line as a text, if it is one. -/
def chars : List Char := m.layout.head m.region ++ lossyChars m.tail

/-- Whether a region is what a line shows, apart from the path. -/
def Shows (r : Region) : Prop := r = { m.region with path := r.path }

theorem isText_line : IsText m.line ↔ IsText m.tail := by
  rw [line]
  rcases m.tail_open with htail | ⟨more, htail⟩
  · rw [htail, List.append_nil]
    exact ⟨fun _ => isText_encode [], fun _ => isText_encode _⟩
  · rw [htail, isText_append_cons (by decide), isText_cons (by decide)]
    exact and_iff_right (isText_encode _)

variable {m}

theorem encode_chars (h : IsText m.tail) : encode m.chars = m.line := by
  rw [chars, encode_append, h.encode_lossyChars, line]

theorem open_tail (m : Mapping) : Maps.Open (lossyChars m.tail) := by
  rcases m.tail_open with htail | ⟨more, htail⟩
  · rw [htail]
    exact .inl (by rw [lossyChars])
  · rw [htail, lossyChars]
    exact .inr ⟨_, rfl⟩

theorem newline_not_mem (h : IsText m.tail) : '\n' ∉ m.chars := by
  rw [chars, List.mem_append, not_or]
  refine ⟨m.layout.not_mem_head m.region rfl (by decide), fun hmem => m.one_line ?_⟩
  rw [← h.encode_lossyChars]
  exact List.mem_flatMap.2 ⟨'\n', hmem, by decide⟩

theorem reads (m : Mapping) : ∃ r, m.Shows r ∧ Maps.Reads (stripReturn m.chars) (some r) := by
  rw [chars, m.layout.stripReturn_head]
  have hread := m.layout.region_head m.order m.access m.open_tail.strip
  refine ⟨_, ?_, .row (m.layout.solid_head m.region _) hread⟩
  rfl

end Mapping

/-- A process as the kernel shows it; its name may be any bytes. -/
structure Task where
  pid : Nat
  comm : List UInt8
  state : String
  parent : Nat
  remainder : String
  mappings : List Mapping
  state_isField : ProcessRecord.IsField state.toList
  state_open : ')' ∉ state.toList
  parent_lt : parent < 2 ^ 32
  remainder_open : ')' ∉ remainder.toList

namespace Task

variable (t : Task)

/-- The status line. -/
def stat : List UInt8 :=
  (toString t.pid ++ " (").toUTF8.toList ++ t.comm ++
    (") " ++ t.state ++ " " ++ toString t.parent ++ " " ++ t.remainder).toUTF8.toList

/-- The mapping table. -/
def table : List UInt8 := t.mappings.flatMap fun m => m.line ++ [10]

/-- Whether a description is that of the process. -/
structure Describes (p : ProcessInfo) : Prop where
  pid : p.pid = t.pid
  name : encode p.name.toList = t.comm
  parent : p.parent = if t.parent = 0 then none else some t.parent

variable {t} {cs : List Char}

theorem stat_eq (h : t.comm = encode cs) : t.stat =
    encode (ProcessRecord.statLine t.pid (.ofList cs) t.state t.parent t.remainder).toList := by
  rw [stat, h, toList_toUTF8, toList_toUTF8, ← encode_append, ← encode_append]
  simp [ProcessRecord.statLine]

theorem isText_stat : IsText t.stat ↔ IsText t.comm := by
  constructor
  · intro h
    have hsplit : t.stat = (encode (toString t.pid ++ " ").toList) ++
        40 :: (t.comm ++ 41 :: encode (" " ++ t.state ++ " " ++ toString t.parent ++ " " ++
          t.remainder).toList) := by
      rw [stat, toList_toUTF8, toList_toUTF8]
      simp only [String.toList_append, encode_append]
      simp [encode, String.utf8EncodeChar]
    rw [hsplit, isText_append_cons (by decide), isText_append_cons (by decide)] at h
    exact h.2.1
  · rintro ⟨cs, hcs⟩
    exact ⟨_, stat_eq hcs⟩

theorem isText_table : IsText t.table ↔ ∀ m ∈ t.mappings, IsText m.tail := by
  rw [table]
  induction t.mappings with
  | nil => exact ⟨fun _ m hm => absurd hm List.not_mem_nil, fun _ => isText_encode []⟩
  | cons m ms ih =>
    rw [List.flatMap_cons, List.append_assoc, List.singleton_append,
      isText_append_cons (by decide), m.isText_line, ih, List.forall_mem_cons]

theorem table_eq (h : ∀ m ∈ t.mappings, IsText m.tail) :
    t.table = encode (ended (t.mappings.map Mapping.chars)) := by
  rw [table]
  revert h
  induction t.mappings with
  | nil => exact fun _ => rfl
  | cons m ms ih =>
    intro h
    rw [List.forall_mem_cons] at h
    rw [List.flatMap_cons, ih h.2, ← Mapping.encode_chars h.1]
    simp [ended, encode, String.utf8EncodeChar]

end Task

/-- Whether a name is read as a number, however large. -/
def IsNumeric (name : String) : Prop := ∃ limit n, readDecimal? limit name.toList = some n

/-- The names in the directory that are numbers are those of the processes, each standing there once,
and each process shows its status line and its mapping table. -/
structure Holds (s : Procfs) (files : Node) (names : List String) (tasks : List Task) : Prop where
  list : FileTree.list files s.root = .ok names
  numeric : ∀ name ∈ names, IsNumeric name → ∃ t ∈ tasks, name = toString t.pid
  once : ∀ t ∈ tasks, names.count (toString t.pid) = 1
  stat : ∀ t ∈ tasks, FileTree.read files (s.entry t.pid "stat") = .ok t.stat
  table : ∀ t ∈ tasks, FileTree.read files (s.entry t.pid "maps") = .ok t.table

variable {s : Procfs} {files : Node} {names : List String} {tasks : List Task} {t : Task}

theorem process_ok (h : FileTree.read files (s.entry t.pid "stat") = .ok t.stat)
    (htext : IsText t.comm) : ∃ p, s.process files t.pid = .ok p ∧ t.Describes p := by
  obtain ⟨cs, hcs⟩ := htext
  rw [Task.stat_eq hcs] at h
  have hstat : ProcessRecord.parseStat
      (ProcessRecord.statLine t.pid (.ofList cs) t.state t.parent t.remainder) =
        some (.ofList cs, t.parent) :=
    ProcessRecord.parseStat_statLine t.state_isField t.state_open t.parent_lt t.remainder_open
  rw [process, FileTree.readText_ok h, String.ofList_toList]
  dsimp only
  rw [hstat]
  refine ⟨_, rfl, rfl, ?_, rfl⟩
  rw [hcs, String.toList_ofList]

theorem process_error (h : FileTree.read files (s.entry t.pid "stat") = .ok t.stat)
    (htext : ¬ IsText t.comm) : s.process files t.pid = .error (.io .notText) := by
  rw [process, FileTree.readText_error h (mt Task.isText_stat.1 htext)]
  rfl

theorem regions_ok (h : FileTree.read files (s.entry t.pid "maps") = .ok t.table)
    (htext : ∀ m ∈ t.mappings, IsText m.tail) :
    ∃ rs, s.regions files t.pid = .ok rs ∧ List.Forall₂ Mapping.Shows t.mappings rs := by
  obtain ⟨rs, hrs⟩ := exists_forall₂_iff.2 fun (m : Mapping) (_ : m ∈ t.mappings) => m.reads
  have hreads : List.Forall₂ Maps.Reads ((t.mappings.map Mapping.chars).map stripReturn)
      (rs.map some) := by
    rw [List.map_map, List.forall₂_map_left_iff, List.forall₂_map_right_iff]
    exact hrs.imp fun _ _ hr => hr.2
  have hlines : ∀ line ∈ t.mappings.map Mapping.chars, '\n' ∉ line := by
    rw [List.forall_mem_map]
    exact fun m hm => Mapping.newline_not_mem (htext m hm)
  have hended := lines_ended hlines (List.not_mem_nil : '\n' ∉ [])
  rw [List.append_nil] at hended
  rw [Task.table_eq htext] at h
  refine ⟨rs, ?_, hrs.imp fun _ _ hr => hr.1⟩
  rw [regions, FileTree.readText_ok h]
  dsimp only
  rw [Maps.regions, String.toList_ofList, hended, List.isEmpty_nil, if_pos rfl, List.append_nil,
    Maps.regionsFrom_reads hreads, List.reduceOption, List.filterMap_map]
  exact congrArg Except.ok (List.filterMap_some (l := rs))

theorem regions_error (h : FileTree.read files (s.entry t.pid "maps") = .ok t.table)
    (htext : ∃ m ∈ t.mappings, ¬ IsText m.tail) :
    s.regions files t.pid = .error (.io .notText) := by
  obtain ⟨m, hm, htail⟩ := htext
  have htable : ¬ IsText t.table := fun h => htail (Task.isText_table.1 h m hm)
  rw [regions, FileTree.readText_error h htable]

theorem pid?_toString (n : Nat) : pid? (toString n) = if n < 2 ^ 32 then some n else none :=
  readDecimal?_toString _ n

/-- Where results tell what they were made of, the results are as many as the elements that have
one, and in their order. -/
theorem map_filterMap_of_inverse {α β : Type} {f : α → Option β} {g : β → α} {l : List α}
    (h : ∀ a ∈ l, ∀ b, f a = some b → g b = a) :
    (l.filterMap f).map g = l.filter fun a => (f a).isSome := by
  induction l with
  | nil => rfl
  | cons a l ih =>
    have hrest := ih fun b hb => h b (List.mem_cons_of_mem _ hb)
    cases ha : f a with
    | none => rw [List.filterMap_cons_none ha, List.filter_cons_of_neg (by simp [ha]), hrest]
    | some b =>
      rw [List.filterMap_cons_some ha, List.filter_cons_of_pos (by simp [ha]), List.map_cons, hrest,
        h a List.mem_cons_self b ha]

namespace Holds

variable (h : Holds s files names tasks)

include h

theorem exists_of_pid? {name : String} {n : Nat} (hname : name ∈ names) (hn : pid? name = some n) :
    ∃ t ∈ tasks, t.pid = n ∧ n < 2 ^ 32 ∧ name = toString n := by
  obtain ⟨t, ht, rfl⟩ := h.numeric name hname ⟨_, n, hn⟩
  rw [pid?_toString] at hn
  split at hn
  · next hlt =>
    cases hn
    exact ⟨t, ht, rfl, hlt, rfl⟩
  · cases hn

theorem mem_pids {n : Nat} : n ∈ names.filterMap pid? ↔ ∃ t ∈ tasks, t.pid = n ∧ n < 2 ^ 32 := by
  rw [List.mem_filterMap]
  constructor
  · rintro ⟨name, hname, hn⟩
    obtain ⟨t, ht, hpid, hlt, _⟩ := h.exists_of_pid? hname hn
    exact ⟨t, ht, hpid, hlt⟩
  · rintro ⟨t, ht, rfl, hlt⟩
    have hmem : toString t.pid ∈ names := List.count_pos_iff.1 (by rw [h.once t ht]; decide)
    exact ⟨_, hmem, (pid?_toString _).trans (if_pos hlt)⟩

theorem nodup_pids : (names.filterMap pid?).Nodup := by
  have hinverse : ∀ name ∈ names, ∀ n, pid? name = some n → toString n = name := by
    intro name hname n hn
    obtain ⟨_, _, _, _, hcanonical⟩ := h.exists_of_pid? hname hn
    exact hcanonical.symm
  refine List.Nodup.of_map (toString : Nat → String) ?_
  rw [map_filterMap_of_inverse hinverse, List.nodup_iff_count_le_one]
  intro name
  by_cases hname : name ∈ names.filter fun name => (pid? name).isSome
  · obtain ⟨hname, hsome⟩ := List.mem_filter.1 hname
    obtain ⟨n, hn⟩ := Option.isSome_iff_exists.1 hsome
    obtain ⟨t, ht, rfl, _, rfl⟩ := h.exists_of_pid? hname hn
    exact (List.filter_sublist.count_le _).trans (h.once t ht).le
  · rw [List.count_eq_zero.2 hname]
    exact Nat.zero_le 1

theorem describes_of_process {p : ProcessInfo} (ht : t ∈ tasks)
    (hp : (s.process files t.pid).toOption = some p) : IsText t.comm ∧ t.Describes p := by
  by_cases htext : IsText t.comm
  · obtain ⟨q, hq, hdescribes⟩ := process_ok (h.stat t ht) htext
    rw [hq] at hp
    cases hp
    exact ⟨htext, hdescribes⟩
  · rw [process_error (h.stat t ht) htext] at hp
    cases hp

theorem exists_describes {n : Nat} {p : ProcessInfo} (hn : n ∈ names.filterMap pid?)
    (hp : (s.process files n).toOption = some p) : ∃ t ∈ tasks, t.pid = n ∧ t.Describes p := by
  obtain ⟨t, ht, rfl, _⟩ := h.mem_pids.1 hn
  exact ⟨t, ht, rfl, (h.describes_of_process ht hp).2⟩

theorem processes_ok : ∃ ps, s.processes files = .ok ps ∧
    ps.Pairwise (fun p q => p.pid < q.pid) ∧ (∀ p ∈ ps, ∃ t ∈ tasks, t.Describes p) ∧
    ∀ t ∈ tasks, (∃ p ∈ ps, p.pid = t.pid) ↔ t.pid < 2 ^ 32 ∧ IsText t.comm := by
  generalize hfound : ((names.filterMap pid?).filterMap fun pid => (s.process files pid).toOption) =
    found
  have hmem {p : ProcessInfo} : p ∈ found ↔
      ∃ n ∈ names.filterMap pid?, (s.process files n).toOption = some p := by
    rw [← hfound, List.mem_filterMap]
  -- A description has the number that it was asked for by, so no number comes twice.
  have hnodup : (found.map (·.pid)).Nodup := by
    rw [← hfound, map_filterMap_of_inverse]
    · exact h.nodup_pids.filter _
    · intro n hn p hp
      obtain ⟨t, _, hpid, hdescribes⟩ := h.exists_describes hn hp
      exact hdescribes.pid.trans hpid
  have hperm := List.mergeSort_perm found fun a b => decide (a.pid ≤ b.pid)
  refine ⟨found.mergeSort fun a b => a.pid ≤ b.pid, ?_, ?_, ?_, ?_⟩
  · rw [processes, h.list, ← hfound]
  · have hsorted : (found.mergeSort fun a b => a.pid ≤ b.pid).Pairwise
        (fun a b => decide (a.pid ≤ b.pid) = true) := by
      apply List.pairwise_mergeSort
      · intro a b c hab hbc
        rw [decide_eq_true_eq] at hab hbc ⊢
        exact le_trans hab hbc
      · intro a b
        rw [Bool.or_eq_true, decide_eq_true_eq, decide_eq_true_eq]
        exact le_total a.pid b.pid
    have hdistinct := List.pairwise_map.1 ((hperm.map (·.pid)).nodup_iff.2 hnodup)
    refine (hsorted.and hdistinct).imp ?_
    rintro a b ⟨hle, hne⟩
    exact lt_of_le_of_ne (of_decide_eq_true hle) hne
  · intro p hp
    obtain ⟨n, hn, hanswer⟩ := hmem.1 (hperm.mem_iff.1 hp)
    obtain ⟨t, ht, _, hdescribes⟩ := h.exists_describes hn hanswer
    exact ⟨t, ht, hdescribes⟩
  · intro t ht
    constructor
    · rintro ⟨p, hp, hpid⟩
      obtain ⟨n, hn, hanswer⟩ := hmem.1 (hperm.mem_iff.1 hp)
      obtain ⟨t', ht', rfl, hdescribes⟩ := h.exists_describes hn hanswer
      rw [← hdescribes.pid, hpid] at hn hanswer
      obtain ⟨_, _, _, hlt⟩ := h.mem_pids.1 hn
      exact ⟨hlt, (h.describes_of_process ht hanswer).1⟩
    · rintro ⟨hlt, htext⟩
      obtain ⟨p, hanswer, hdescribes⟩ := process_ok (h.stat t ht) htext
      refine ⟨p, hperm.mem_iff.2 (hmem.2 ⟨t.pid, h.mem_pids.2 ⟨t, ht, rfl, hlt⟩, ?_⟩),
        hdescribes.pid⟩
      rw [hanswer]
      rfl

end Holds

/-- Exactly the processes whose names are texts are listed, each once and in the order of their
numbers, as far as the numbers fit into 32 bits; and every line of a mapping table is answered with
its region if all mapped paths are texts, while otherwise none is. -/
theorem listed_iff_isText (h : Holds s files names tasks) :
    (∃ ps, s.processes files = .ok ps ∧ ps.Pairwise (fun p q => p.pid < q.pid) ∧
      (∀ p ∈ ps, ∃ t ∈ tasks, t.Describes p) ∧
      ∀ t ∈ tasks, (∃ p ∈ ps, p.pid = t.pid) ↔ t.pid < 2 ^ 32 ∧ IsText t.comm) ∧
    ∀ t ∈ tasks,
      ((∀ m ∈ t.mappings, IsText m.tail) →
        ∃ rs, s.regions files t.pid = .ok rs ∧ List.Forall₂ Mapping.Shows t.mappings rs) ∧
      ((∃ m ∈ t.mappings, ¬ IsText m.tail) → s.regions files t.pid = .error (.io .notText)) :=
  ⟨h.processes_ok, fun t ht => ⟨regions_ok (h.table t ht), regions_error (h.table t ht)⟩⟩

/-- A process whose name is cut inside a character, and one that maps a path of this kind. -/
def tornFiles : Node := .directory [("proc", .directory [
  ("77", .directory [
    ("stat", .file ("77 (gam".toUTF8.toList ++ 195 :: ") S 1 0".toUTF8.toList)),
    ("maps", .file "1-2 r-xp 0 0:0 0 /a\n".toUTF8.toList)]),
  ("self", .directory []),
  ("8", .directory [
    ("stat", .file "8 (game) S 1 0".toUTF8.toList),
    ("maps", .file ("1-2 r-xp 0 0:0 0 /a".toUTF8.toList ++ [195, 10]))])])]

def tornMapping (path : List UInt8) (h : 10 ∉ path) : Mapping :=
  ⟨.bare, ⟨⟨1⟩, ⟨2⟩, .readExecute, false, 0, none⟩, by decide, by decide, 32 :: path, .inr ⟨_, rfl⟩,
    by simp [h]⟩

def tornTask (pid : Nat) (comm : List UInt8) (m : Mapping) : Task :=
  ⟨pid, comm, "S", 1, "0", [m], ⟨by decide, by simp [ProcessRecord.isBlank]⟩, by decide, by decide,
    by decide⟩

def tornTasks : List Task :=
  [tornTask 77 [103, 97, 109, 195] (tornMapping [47, 97] (by decide)),
    tornTask 8 [103, 97, 109, 101] (tornMapping [47, 97, 195] (by decide))]

theorem tornFiles_root : FileTree.Canonical tornFiles (fun _ => true) ([] ++ ["proc"]) :=
  .child .root (by decide) ⟨by decide, rfl⟩ rfl id

theorem read_tornFiles {pid file : String} {bytes : List UInt8} (hpid : pid = "77" ∨ pid = "8")
    (hfile : file = "stat" ∨ file = "maps")
    (h : tornFiles.at? ["proc", pid, file] = some (.file bytes)) :
    FileTree.read tornFiles ["proc", pid, file] = .ok bytes := by
  have hdirectory : FileTree.Canonical tornFiles (fun _ => true) (["proc"] ++ [pid]) := by
    rcases hpid with rfl | rfl
    · exact .child tornFiles_root (by decide) ⟨by decide, rfl⟩ rfl id
    · exact .child tornFiles_root (by decide) ⟨by decide, rfl⟩ rfl id
  have hfits : file ≠ ".." ∧ file.utf8ByteSize ≤ FileTree.maxName ∧
      FileTree.hasNul ["proc", pid, file] = false ∧
      FileTree.isShort ["proc", pid, file] = true := by
    rcases hpid with rfl | rfl <;> rcases hfile with rfl | rfl <;> decide
  obtain ⟨hup, hsize, hnul, hshort⟩ := hfits
  exact FileTree.read_canonical (.child hdirectory hup ⟨hsize, rfl⟩ h id) hnul hshort h

theorem tornFiles_holds :
    Holds ⟨["proc"], []⟩ tornFiles ["77", "self", "8"] tornTasks where
  list := FileTree.list_canonical tornFiles_root (by decide) (by decide) rfl
  numeric := by
    rw [List.forall_mem_cons, List.forall_mem_cons, List.forall_mem_singleton]
    refine ⟨fun _ => ⟨_, List.mem_cons_self, by decide⟩, ?_, fun _ =>
      ⟨_, List.mem_cons_of_mem _ (List.mem_singleton_self _), by decide⟩⟩
    rintro ⟨limit, n, hn⟩
    cases hn
  once := by
    rw [tornTasks, List.forall_mem_cons, List.forall_mem_singleton]
    exact ⟨by decide, by decide⟩
  stat := by
    rw [tornTasks, List.forall_mem_cons, List.forall_mem_singleton]
    exact ⟨read_tornFiles (.inl rfl) (.inl rfl) (by cbv),
      read_tornFiles (.inr rfl) (.inl rfl) (by cbv)⟩
  table := by
    rw [tornTasks, List.forall_mem_cons, List.forall_mem_singleton]
    exact ⟨read_tornFiles (.inl rfl) (.inr rfl) (by cbv),
      read_tornFiles (.inr rfl) (.inr rfl) (by cbv)⟩

theorem listed_iff_isText_torn :
    (∃ ps, processes ⟨["proc"], []⟩ tornFiles = .ok ps ∧ (∃ p ∈ ps, p.pid = 8) ∧
      ¬ ∃ p ∈ ps, p.pid = 77) ∧
    (∃ rs, regions ⟨["proc"], []⟩ tornFiles 77 = .ok rs ∧ rs.length = 1) ∧
    regions ⟨["proc"], []⟩ tornFiles 8 = .error (.io .notText) := by
  obtain ⟨⟨ps, hps, _, _, hlisted⟩, hregions⟩ := listed_iff_isText tornFiles_holds
  rw [tornTasks, List.forall_mem_cons, List.forall_mem_singleton] at hlisted hregions
  obtain ⟨hhidden, hshown⟩ := hlisted
  obtain ⟨⟨hread, _⟩, ⟨_, hrefused⟩⟩ := hregions
  refine ⟨⟨ps, hps, ?_, ?_⟩, ?_, ?_⟩
  · exact hshown.2 ⟨by decide, "game".toList, by cbv⟩
  · exact fun h => not_isText (by cbv) (hhidden.1 h).2
  · have htext : IsText [32, 47, 97] := ⟨" /a".toList, by cbv⟩
    obtain ⟨rs, hrs, hlines⟩ := hread (List.forall_mem_singleton.2 htext)
    exact ⟨rs, hrs, hlines.length_eq.symm⟩
  · have htorn : ¬ IsText [32, 47, 97, 195] := not_isText (by cbv)
    exact hrefused ⟨_, List.mem_singleton_self _, htorn⟩

end Procfs

end Grapnel
