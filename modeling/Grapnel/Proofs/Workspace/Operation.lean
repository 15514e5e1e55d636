import Grapnel.Workspace.Basic
import Grapnel.Proofs.Outcome
import Grapnel.Proofs.FileTree.Change

namespace Grapnel

open Node FileTree

namespace Workspace

/-- What is asked of a workspace, together with a path. -/
inductive Operation where
  | read
  | write (content : List UInt8)
  | append (content : List UInt8)
  | makeFolder
  | list
  | deleteFile
  | deleteFolder

inductive Answer where
  | done
  | content (bytes : List UInt8)
  | entries (paths : List String)

def perform (w : Workspace) (path : String) : Operation → FileWork Answer
  | .read => do return .content (← w.read path)
  | .write content => do w.write path content; return .done
  | .append content => do w.append path content; return .done
  | .makeFolder => do w.makeFolder path; return .done
  | .list => do return .entries (← w.list path)
  | .deleteFile => do w.deleteFile path; return .done
  | .deleteFolder => do w.deleteFolder path; return .done

/-- What an operation that changes a file makes of its content, as far as the disk takes the bytes. -/
def Operation.edit? (w : Workspace) (names : List String) :
    Operation → Option (List UInt8 → List UInt8)
  | .write content => some fun _ => w.disk.taken names content
  | .append content => some (· ++ w.disk.taken names content)
  | _ => none

/-- The place at which an operation acts once its path is resolved: what it shows, creates, changes
or removes is the node there. -/
inductive Operation.Acts (w : Workspace) (files : Node) (names : List String) :
    Operation → List String → Prop where
  | read : hasNul names = false → walk files names = .ok ⟨p, some (.file c)⟩ →
      Acts w files names .read p
  | list : hasNul names = false → walk files names = .ok ⟨p, some (.directory entries)⟩ →
      Acts w files names .list p
  | makeFolder : Makes files names p → Acts w files names .makeFolder p
  | parents : op.edit? w names = some g → Makes files names.dropLast p → Acts w files names op p
  | create : op.edit? w names = some g → hasNul names = false → walk files names = .ok ⟨p, none⟩ →
      Acts w files names op p
  | change : op.edit? w names = some g → hasNul names = false →
      walk files names = .ok ⟨p, some (.file c)⟩ → g c ≠ c → Acts w files names op p
  | deleteFile : FileTree.isFile files names = true → walkShort files names = .ok ⟨p, some n⟩ →
      n.isDirectory = false → Acts w files names .deleteFile p
  | deleteFolder : names ≠ w.root → FileTree.isDirectory files names = true →
      walkShort files names = .ok ⟨p, some n⟩ → n.isDirectory = true ∨ n.IsLink →
      Acts w files names .deleteFolder p

/-- What an operation changes is at the place where it acts, and below. -/
inductive Effect (w : Workspace) (files : Node) (names : List String) (op : Operation)
    (files' : Node) : Prop where
  | none : files' = files → (∀ p, ¬ op.Acts w files names p) → Effect w files names op files'
  | one : op.Acts w files names p → (∀ q, op.Acts w files names q → q = p) →
      Changed files files' p → Effect w files names op files'

variable {w : Workspace} {files files' n : Node} {path : String} {names p q : List String}
  {op : Operation} {g : List UInt8 → List UInt8} {c : List UInt8}
  {entries : List (String × Node)}

theorem perform_refused (h : w.resolve files path = .error e) :
    outcome (w.perform path op) files = (.error e, files) := by
  cases op <;> simp only [perform, read, write, append, makeFolder, list, deleteFile, deleteFolder,
    resolveCreatable, outcome_bind, outcome_get, outcome_lift, h]

theorem outcome_takeOver {α : Type} (names : List String) (r : Except IoFault α × Node)
    (files : Node) :
    outcome (takeOver names r) files =
      match r with
      | (.ok _, files') => (.ok ⟨⟩, files')
      | (.error fault, files') => (.error (.io (Path.absolute names) fault), files') := by
  rcases r with ⟨r, files'⟩
  cases r <;> rfl

theorem outcome_makeDirectories (names : List String) (files : Node) :
    outcome (makeDirectories names) files =
      match FileTree.makeDirectories files names with
      | (.ok _, files') => (.ok ⟨⟩, files')
      | (.error fault, files') => (.error (.io (Path.absolute names) fault), files') := by
  simp only [makeDirectories, outcome_bind, outcome_get, outcome_takeOver]
  rcases FileTree.makeDirectories files names with ⟨r, files'⟩
  cases r <;> rfl

theorem perform_read (h : w.resolve files path = .ok names) :
    outcome (w.perform path .read) files =
      (if FileTree.isFile files names then
        match FileTree.read files names with
        | .ok c => .ok (.content c)
        | .error fault => .error (.io (Path.absolute names) fault)
      else .error (.notFound path), files) := by
  simp only [perform, read, outcome_bind, outcome_get, outcome_lift, h]
  cases FileTree.isFile files names with
  | true =>
    simp only [if_true]
    cases FileTree.read files names <;> rfl
  | false => rfl

theorem perform_list (h : w.resolve files path = .ok names) :
    outcome (w.perform path .list) files =
      (if FileTree.isDirectory files names then
        match FileTree.list files names with
        | .ok found => .ok (.entries
            ((found.map fun name => w.relative (names ++ [name])).mergeSort fun a b => a ≤ b))
        | .error fault => .error (.io (Path.absolute names) fault)
      else .error (.notFound path), files) := by
  simp only [perform, list, outcome_bind, outcome_get, outcome_lift, h]
  cases FileTree.isDirectory files names with
  | true =>
    simp only [if_true]
    cases FileTree.list files names <;> rfl
  | false => rfl

theorem perform_makeFolder (h : w.resolve files path = .ok names) :
    (outcome (w.perform path .makeFolder) files).2 = (FileTree.makeDirectories files names).2 := by
  simp only [perform, makeFolder, outcome_bind, outcome_get, outcome_lift, h,
    outcome_makeDirectories]
  rcases FileTree.makeDirectories files names with ⟨r, files'⟩
  cases r <;> rfl

theorem resolveCreatable_eq (h : w.resolve files path = .ok names) (hn : names ≠ []) :
    outcome (w.resolveCreatable path) files =
      match FileTree.makeDirectories files names.dropLast with
      | (.ok _, files') => (.ok names, files')
      | (.error fault, files') => (.error (.io (Path.absolute names.dropLast) fault), files') := by
  simp only [resolveCreatable, outcome_bind, outcome_get, outcome_lift, h, ne_eq, hn,
    not_false_eq_true, if_true, outcome_makeDirectories]
  rcases FileTree.makeDirectories files names.dropLast with ⟨r, files'⟩
  cases r <;> rfl

theorem perform_edit (h : w.resolve files path = .ok names) (hn : names ≠ [])
    (he : op.edit? w names = some g) :
    (outcome (w.perform path op) files).2 =
      match FileTree.makeDirectories files names.dropLast with
      | (.ok _, files') =>
        match FileTree.update files' names g with
        | .ok files'' => files''
        | .error _ => files'
      | (.error _, files') => files' := by
  cases op with
  | write content =>
    cases he
    simp only [perform, write, outcome_bind, resolveCreatable_eq h hn]
    rcases FileTree.makeDirectories files names.dropLast with ⟨r, files'⟩
    cases r with
    | error => rfl
    | ok =>
      simp only [outcome_get, outcome_takeOver]
      refine Eq.trans ?_ (store_tree w.disk files' names (fun _ => []) content)
      change _ = (FileTree.write w.disk files' names content).2
      rcases FileTree.write w.disk files' names content with ⟨r, files''⟩
      cases r <;> rfl
  | append content =>
    cases he
    simp only [perform, append, outcome_bind, resolveCreatable_eq h hn]
    rcases FileTree.makeDirectories files names.dropLast with ⟨r, files'⟩
    cases r with
    | error => rfl
    | ok =>
      simp only [outcome_get, outcome_takeOver]
      refine Eq.trans ?_ (store_tree w.disk files' names id content)
      change _ = (FileTree.append w.disk files' names content).2
      rcases FileTree.append w.disk files' names content with ⟨r, files''⟩
      cases r <;> rfl
  | read | makeFolder | list | deleteFile | deleteFolder => cases he

theorem perform_deleteFile (h : w.resolve files path = .ok names) :
    (outcome (w.perform path .deleteFile) files).2 =
      if FileTree.isFile files names then
        match removeFile files names with
        | .ok files' => files'
        | .error _ => files
      else files := by
  simp only [perform, deleteFile, outcome_bind, outcome_get, outcome_lift, h]
  cases FileTree.isFile files names with
  | true =>
    simp only [if_true]
    cases removeFile files names <;> rfl
  | false => rfl

theorem perform_deleteFolder (h : w.resolve files path = .ok names) :
    (outcome (w.perform path .deleteFolder) files).2 =
      if names = w.root then files
      else if FileTree.isDirectory files names then
        match removeDirectory files names with
        | .ok files' => files'
        | .error _ => files
      else files := by
  simp only [perform, deleteFolder, outcome_bind, outcome_get, outcome_lift, h]
  by_cases hr : names = w.root
  · simp only [hr, if_true]
    rfl
  · simp only [hr, if_false]
    cases FileTree.isDirectory files names with
    | true =>
      simp only [if_true]
      cases removeDirectory files names <;> rfl
    | false => rfl

theorem acts_makeFolder : Operation.makeFolder.Acts w files names p ↔ Makes files names p := by
  refine ⟨fun h => ?_, .makeFolder⟩
  cases h with
  | makeFolder h => exact h
  | parents hg | create hg | change hg => cases hg

theorem acts_deleteFile : Operation.deleteFile.Acts w files names p ↔
    FileTree.isFile files names = true ∧
      ∃ n, walkShort files names = .ok ⟨p, some n⟩ ∧ n.isDirectory = false := by
  refine ⟨fun h => ?_, fun ⟨hf, _, hw, hd⟩ => .deleteFile hf hw hd⟩
  cases h with
  | deleteFile hf hw hd => exact ⟨hf, _, hw, hd⟩
  | parents hg | create hg | change hg => cases hg

theorem acts_deleteFolder : Operation.deleteFolder.Acts w files names p ↔
    names ≠ w.root ∧ FileTree.isDirectory files names = true ∧
      ∃ n, walkShort files names = .ok ⟨p, some n⟩ ∧ (n.isDirectory = true ∨ n.IsLink) := by
  refine ⟨fun h => ?_, fun ⟨hr, hf, _, hw, hd⟩ => .deleteFolder hr hf hw hd⟩
  cases h with
  | deleteFolder hr hf hw hd => exact ⟨hr, hf, _, hw, hd⟩
  | parents hg | create hg | change hg => cases hg

theorem acts_edit (he : op.edit? w names = some g) (h : op.Acts w files names p) :
    Makes files names.dropLast p ∨ hasNul names = false ∧
      (walk files names = .ok ⟨p, none⟩ ∨
        ∃ c, walk files names = .ok ⟨p, some (.file c)⟩ ∧ g c ≠ c) := by
  cases h with
  | parents hg hp => exact .inl hp
  | create hg hn hw => exact .inr ⟨hn, .inl hw⟩
  | change hg hn hw hc =>
    rw [he] at hg
    cases hg
    exact .inr ⟨hn, .inr ⟨_, hw, hc⟩⟩
  | read | list | makeFolder | deleteFile | deleteFolder => cases he

theorem effect_makeFolder (hc : ".." ∉ names) :
    Effect w files names .makeFolder (FileTree.makeDirectories files names).2 := by
  rcases makeDirectories_spec files hc with ⟨he, hno⟩ | ⟨p, hp, hch, _⟩
  · exact .none he fun p hp => hno p (acts_makeFolder.1 hp)
  · exact .one (.makeFolder hp) (fun q hq => (acts_makeFolder.1 hq).unique hc hp) hch

theorem effect_deleteFile (hc : ".." ∉ names) (hne : names ≠ []) :
    Effect w files names .deleteFile
      (if FileTree.isFile files names then
        match removeFile files names with
        | .ok files' => files'
        | .error _ => files
      else files) := by
  split
  · next hf =>
    split
    · next hr =>
      obtain ⟨p, n, hw, hd, rfl⟩ := removeFile_ok hr
      refine .one (.deleteFile hf hw hd) (fun q hq => ?_) (changed_remove hc hne hw)
      obtain ⟨_, n', hw', _⟩ := acts_deleteFile.1 hq
      cases hw.symm.trans hw'
      rfl
    · next hr =>
      refine .none rfl fun p hp => ?_
      obtain ⟨_, n, hw, hd⟩ := acts_deleteFile.1 hp
      rw [removeFile_eq (isFile_iff.1 hf).1 hw hd] at hr
      cases hr
  · next hf => exact .none rfl fun p hp => hf (acts_deleteFile.1 hp).1

theorem effect_deleteFolder (hc : ".." ∉ names) (hne : names ≠ []) :
    Effect w files names .deleteFolder
      (if names = w.root then files
      else if FileTree.isDirectory files names then
        match removeDirectory files names with
        | .ok files' => files'
        | .error _ => files
      else files) := by
  split
  · next hroot => exact .none rfl fun p hp => (acts_deleteFolder.1 hp).1 hroot
  next hroot =>
  split
  · next hf =>
    split
    · next hr =>
      obtain ⟨p, n, hw, hd, rfl⟩ := removeDirectory_ok hr
      refine .one (.deleteFolder hroot hf hw hd) (fun q hq => ?_) (changed_remove hc hne hw)
      obtain ⟨_, _, n', hw', _⟩ := acts_deleteFolder.1 hq
      cases hw.symm.trans hw'
      rfl
    · next hr =>
      refine .none rfl fun p hp => ?_
      obtain ⟨_, _, n, hw, hd⟩ := acts_deleteFolder.1 hp
      rw [removeDirectory_eq (isDirectory_iff.1 hf).1 hw hd] at hr
      cases hr
  · next hf => exact .none rfl fun p hp => hf (acts_deleteFolder.1 hp).2.1

theorem effect_update (he : op.edit? w names = some g) (hno : ∀ p, ¬ Makes files names.dropLast p) :
    Effect w files names op
      (match FileTree.update files names g with
      | .ok files' => files'
      | .error _ => files) := by
  split
  · next hu =>
    obtain ⟨hn, p, ⟨c, hw, rfl⟩ | ⟨hw, rfl⟩⟩ := update_ok hu
    · by_cases hg : g c = c
      · refine .none (by rw [hg, set_same (walk_some hw).2]) fun q hq => ?_
        rcases acts_edit he hq with hq | ⟨_, hw' | ⟨c', hw', hc'⟩⟩
        · exact hno q hq
        · cases hw.symm.trans hw'
        · cases hw.symm.trans hw'
          exact hc' hg
      · refine .one (.change he hn hw hg) (fun q hq => ?_) (changed_update hw hg)
        rcases acts_edit he hq with hq | ⟨_, hw' | ⟨c', hw', hc'⟩⟩
        · exact absurd hq (hno q)
        · cases hw.symm.trans hw'
        · cases hw.symm.trans hw'
          rfl
    · refine .one (.create he hn hw) (fun q hq => ?_) (changed_create hw _)
      rcases acts_edit he hq with hq | ⟨_, hw' | ⟨c', hw', hc'⟩⟩
      · exact absurd hq (hno q)
      · cases hw.symm.trans hw'
        rfl
      · cases hw.symm.trans hw'
  · next hu =>
    refine .none rfl fun q hq => ?_
    rcases acts_edit he hq with hq | ⟨hn, hw | ⟨c, hw, _⟩⟩
    · exact hno q hq
    · rw [update_create hn hw] at hu
      cases hu
    · rw [update_change hn hw] at hu
      cases hu

theorem effect_edit (hc : ".." ∉ names) (hne : names ≠ []) (he : op.edit? w names = some g) :
    Effect w files names op
      (match FileTree.makeDirectories files names.dropLast with
      | (.ok _, files') =>
        match FileTree.update files' names g with
        | .ok files'' => files''
        | .error _ => files'
      | (.error _, files') => files') := by
  obtain ⟨l, s, rfl⟩ := (List.eq_nil_or_concat' names).resolve_left hne
  rw [List.dropLast_concat]
  have hcl : ".." ∉ l := fun hm => hc (List.mem_append_left _ hm)
  have hmd (place : Place) (hn : hasNul (l ++ [s]) = false)
      (hw : walk files (l ++ [s]) = .ok place) :
      FileTree.makeDirectories files l = (.ok files, files) :=
    makeDirectories_of_directory hcl (isDirectory_of_walk hc hn hw)
  have hdl : (l ++ [s]).dropLast = l := List.dropLast_concat
  have hspec := makeDirectories_spec files hcl
  rcases hr : FileTree.makeDirectories files l with ⟨r, files₁⟩
  rw [hr] at hspec hmd
  rcases hspec with ⟨hsame, hno⟩ | ⟨p, hp, hch, ha⟩
  · change files₁ = files at hsame
    subst hsame
    cases r with
    | ok => exact effect_update he (hdl.symm ▸ hno)
    | error e =>
      refine .none rfl fun q hq => ?_
      rcases acts_edit he hq with hq | ⟨hn, hw | ⟨c, hw, _⟩⟩
      · exact hno q (hdl ▸ hq)
      · cases hmd _ hn hw
      · cases hmd _ hn hw
  · refine .one (.parents he (hdl.symm ▸ hp)) (fun q hq => ?_) ?_
    · rcases acts_edit he hq with hq | ⟨hn, hw | ⟨c, hw, _⟩⟩
      · exact (hdl ▸ hq).unique hcl hp
      · cases hmd _ hn hw
        exact absurd rfl hch.here
      · cases hmd _ hn hw
        exact absurd rfl hch.here
    · cases r with
      | error => exact hch
      | ok files' =>
        change Changed files (match FileTree.update files₁ (l ++ [s]) g with
          | .ok files'' => files''
          | .error _ => files₁) p
        split
        · next hu =>
          obtain ⟨_, q, hq⟩ := update_ok hu
          have hbelow (v : Node) (hw : ∃ n, walk files₁ (l ++ [s]) = .ok ⟨q, n⟩) :
              Changed files (files₁.set q (some v)) p := by
            obtain ⟨n, hw⟩ := hw
            obtain ⟨q', hpl, hpq⟩ := (ha files' rfl).walk hc hw
            cases hpl
            refine hch.below (hpq.trans (List.prefix_append ..)) ?_
            rintro rfl
            exact absurd hpq.length_le (by simp)
          rcases hq with ⟨c, hw, rfl⟩ | ⟨hw, rfl⟩
          · exact hbelow _ ⟨_, hw⟩
          · exact hbelow _ ⟨_, hw⟩
        · exact hch

theorem effect_perform (h : w.resolve files path = .ok names) (hc : ".." ∉ names)
    (hne : names ≠ []) (hr : op ≠ .read) (hl : op ≠ .list) :
    Effect w files names op (outcome (w.perform path op) files).2 := by
  cases op with
  | read => exact absurd rfl hr
  | list => exact absurd rfl hl
  | write => rw [perform_edit h hne rfl]; exact effect_edit hc hne rfl
  | append => rw [perform_edit h hne rfl]; exact effect_edit hc hne rfl
  | makeFolder => rw [perform_makeFolder h]; exact effect_makeFolder hc
  | deleteFile => rw [perform_deleteFile h]; exact effect_deleteFile hc hne
  | deleteFolder => rw [perform_deleteFolder h]; exact effect_deleteFolder hc hne

theorem perform_done (h : (outcome (w.perform path op) files).1 = .ok a) (ha : a ≠ .done) :
    op = .read ∨ op = .list := by
  have hdone (x : FileWork Unit)
      (hx : (outcome (do x; return Answer.done : FileWork Answer) files).1 = .ok a) : False := by
    rw [outcome_bind] at hx
    split at hx
    · exact ha (Except.ok.inj hx).symm
    · cases hx
  cases op with
  | read => exact .inl rfl
  | list => exact .inr rfl
  | write content => exact (hdone (w.write path content) h).elim
  | append content => exact (hdone (w.append path content) h).elim
  | makeFolder => exact (hdone (w.makeFolder path) h).elim
  | deleteFile => exact (hdone (w.deleteFile path) h).elim
  | deleteFolder => exact (hdone (w.deleteFolder path) h).elim

end Workspace

end Grapnel
