import Grapnel.Proofs.FileTree.Directories

namespace Grapnel

open Node

namespace FileTree

variable {files files' : Node} {names l p q : List String} {s : String} {c : List UInt8}
  {g : List UInt8 → List UInt8} {n : Node} {place : Place}

theorem walkShort_of_walk (hc : ".." ∉ names) (h : walk files names = .ok ⟨p, some n⟩) :
    ∃ p' n', walkShort files names = .ok ⟨p', some n'⟩ := by
  have hs := isShort_of_walk h
  rcases List.eq_nil_or_concat' names with rfl | ⟨l, s, rfl⟩
  · exact ⟨[], files, walkShort_nil⟩
  have hsn := last_ne_parent hc
  rw [walk_eq hs] at h
  obtain ⟨u, d, entries, hw, hf, hd, h⟩ := walkFrom_concat hsn h
  cases ha : files.at? (d ++ [s]) with
  | none =>
    rw [walkFrom_name hd hf, ← at?_directory hd, ha] at h
    cases h
  | some n' =>
    refine ⟨d ++ [s], n', ?_⟩
    rw [walkShort_eq hs, hw.concat hsn, walkFrom_last hd hf, ha]

theorem changed_update (h : walk files names = .ok ⟨p, some (.file c)⟩) (hg : g c ≠ c) :
    Changed files (files.set p (some (.file (g c)))) p where
  elsewhere _ hq := shape_set hq
  here hc := by
    rw [at?_set_some _ (walk_some h).2, (walk_some h).2] at hc
    exact hg (Node.file.inj (Option.some.inj hc))

theorem changed_create (h : walk files names = .ok ⟨p, none⟩) (v : Node) :
    Changed files (files.set p (some v)) p := by
  rw [walk_eq (isShort_of_walk h)] at h
  obtain ⟨hn, hd⟩ := place_of_walkFrom h ⟨files, rfl⟩
  obtain ⟨d, s, entries, hp, hdir⟩ := hd rfl
  subst hp
  refine changed_set hdir ?_
  rw [← hn]
  nofun

theorem changed_remove (hc : ".." ∉ names) (hn : names ≠ [])
    (h : walkShort files names = .ok ⟨p, some n⟩) : Changed files (files.set p none) p := by
  obtain ⟨l, s, u, d, entries, rfl, _, _, _, hd, hp⟩ := walkShort_place hc h hn
  obtain ⟨rfl, hs⟩ := Place.mk.inj hp
  refine changed_set hd ?_
  rw [← hs]
  nofun

theorem find?_iff : find? files names = some n ↔ hasNul names = false ∧
    ∃ p, walk files names = .ok ⟨p, some n⟩ := by
  rw [find?]
  split
  · next hn =>
    constructor
    · intro h
      cases h
    · rintro ⟨h, -⟩
      rw [hn] at h
      cases h
  · next hn =>
    rw [and_iff_right (eq_false_of_ne_true hn)]
    split
    · next place hw =>
      rw [hw]
      constructor
      · intro h
        exact ⟨place.names, h ▸ rfl⟩
      · rintro ⟨p, he⟩
        cases he
        rfl
    · next hw =>
      rw [hw]
      constructor
      · intro h
        cases h
      · rintro ⟨_, h⟩
        cases h

theorem isDirectory_iff : isDirectory files names = true ↔ hasNul names = false ∧
    ∃ p entries, walk files names = .ok ⟨p, some (.directory entries)⟩ := by
  rw [isDirectory, Option.any_eq_true]
  constructor
  · rintro ⟨n, hn, hd⟩
    obtain ⟨hnul, p, hw⟩ := find?_iff.1 hn
    cases n with
    | directory entries => exact ⟨hnul, p, entries, hw⟩
    | file | link | socket => cases hd
  · rintro ⟨hnul, p, entries, hw⟩
    exact ⟨_, find?_iff.2 ⟨hnul, p, hw⟩, rfl⟩

theorem isFile_iff : isFile files names = true ↔ hasNul names = false ∧
    ∃ p c, walk files names = .ok ⟨p, some (.file c)⟩ := by
  rw [isFile, Option.any_eq_true]
  constructor
  · rintro ⟨n, hn, hf⟩
    obtain ⟨hnul, p, hw⟩ := find?_iff.1 hn
    cases n with
    | file c => exact ⟨hnul, p, c, hw⟩
    | directory | link | socket => cases hf
  · rintro ⟨hnul, p, c, hw⟩
    exact ⟨_, find?_iff.2 ⟨hnul, p, hw⟩, rfl⟩

theorem makeDirectories_of_directory (hc : ".." ∉ names) (h : isDirectory files names = true) :
    makeDirectories files names = (.ok files, files) := by
  obtain ⟨hn, p, entries, hw⟩ := isDirectory_iff.1 h
  obtain ⟨p', n, hws⟩ := walkShort_of_walk hc hw
  have hm : makeDirectory files names = .error (.system .alreadyThere) := by
    rw [makeDirectory, hn, hws]
    rfl
  rw [makeDirectories_error hm (by simp), settle, hm, h]
  rfl

theorem removeFile_eq (hn : hasNul names = false) (h : walkShort files names = .ok ⟨p, some n⟩)
    (hd : n.isDirectory = false) : removeFile files names = .ok (files.set p none) := by
  rw [removeFile, hn, h]
  cases n with
  | directory => cases hd
  | file | link | socket => rfl

theorem removeFile_ok (h : removeFile files names = .ok files') : ∃ p n,
    walkShort files names = .ok ⟨p, some n⟩ ∧ n.isDirectory = false ∧
      files' = files.set p none := by
  rw [removeFile] at h
  split at h
  · cases h
  split at h
  · cases h
  · next n hd hw =>
    cases h
    refine ⟨_, n, hw, ?_, rfl⟩
    cases n with
    | directory entries => exact absurd rfl (hd entries)
    | file | link | socket => rfl
  · cases h
  · cases h

theorem removeDirectory_eq (hn : hasNul names = false)
    (h : walkShort files names = .ok ⟨p, some n⟩) (hd : n.isDirectory = true ∨ n.IsLink) :
    removeDirectory files names = .ok (files.set p none) := by
  rw [removeDirectory, hn, h]
  cases n with
  | directory | link => rfl
  | file | socket => exact (hd.elim (fun hd => nomatch hd) id).elim

theorem removeDirectory_ok (h : removeDirectory files names = .ok files') : ∃ p n,
    walkShort files names = .ok ⟨p, some n⟩ ∧ (n.isDirectory = true ∨ n.IsLink) ∧
      files' = files.set p none := by
  rw [removeDirectory] at h
  split at h
  · cases h
  split at h
  · next hw =>
    cases h
    exact ⟨_, _, hw, .inl rfl, rfl⟩
  · next hw =>
    cases h
    exact ⟨_, _, hw, .inr trivial, rfl⟩
  · cases h
  · cases h
  · cases h

theorem update_change (hn : hasNul names = false)
    (h : walk files names = .ok ⟨p, some (.file c)⟩) :
    update files names g = .ok (files.set p (some (.file (g c)))) := by
  rw [update, hn, h]
  rfl

theorem update_create (hn : hasNul names = false) (h : walk files names = .ok ⟨p, none⟩) :
    update files names g = .ok (files.set p (some (.file (g [])))) := by
  rw [update, hn, h]
  rfl

theorem update_ok (h : update files names g = .ok files') : hasNul names = false ∧ ∃ p,
    (∃ c, walk files names = .ok ⟨p, some (.file c)⟩ ∧
      files' = files.set p (some (.file (g c)))) ∨
    walk files names = .ok ⟨p, none⟩ ∧ files' = files.set p (some (.file (g []))) := by
  rw [update] at h
  split at h
  · cases h
  next hn =>
  refine ⟨eq_false_of_ne_true hn, ?_⟩
  split at h
  · next hw =>
    cases h
    exact ⟨_, .inl ⟨_, hw, rfl⟩⟩
  · cases h
  · cases h
  · next hw =>
    cases h
    exact ⟨_, .inr ⟨hw, rfl⟩⟩
  · cases h

theorem store_tree (disk : Disk) (files : Node) (names : List String)
    (keep : List UInt8 → List UInt8) (bytes : List UInt8) :
    (store disk files names keep bytes).2 =
      match update files names fun content => keep content ++ disk.taken names bytes with
      | .ok files' => files'
      | .error _ => files := by
  rw [store]
  cases update files names fun content => keep content ++ disk.taken names bytes <;> rfl

theorem isDirectory_of_walk (hc : ".." ∉ l ++ [s]) (hn : hasNul (l ++ [s]) = false)
    (h : walk files (l ++ [s]) = .ok place) : isDirectory files l = true := by
  have hs := isShort_of_walk h
  rw [walk_eq hs] at h
  obtain ⟨u, d, entries, hw, _, hd, _⟩ := walkFrom_concat (last_ne_parent hc) h
  refine isDirectory_iff.2 ⟨(hasNul_append.1 hn).1, d, entries, ?_⟩
  rw [walk_of_walks (isShort_above hs (List.prefix_append ..)) hw, hd]

theorem Arrives.walk (h : Arrives files l p) (hc : ".." ∉ l ++ [s])
    (hw : FileTree.walk files (l ++ [s]) = .ok place) :
    ∃ q, place = ⟨q ++ [s], none⟩ ∧ p <+: q := by
  obtain ⟨u, q, hq, hpq, hd⟩ := h.walks
  rw [walk_eq (isShort_of_walk hw), hq.concat (last_ne_parent hc)] at hw
  obtain ⟨hf, _⟩ := fits_of_walkFrom hw
  rw [walkFrom_name hd hf] at hw
  cases hw
  exact ⟨q, rfl, hpq⟩

end FileTree

end Grapnel
