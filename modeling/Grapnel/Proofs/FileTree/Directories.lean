import Grapnel.Proofs.FileTree.Canonical

namespace Grapnel

open Node

namespace FileTree

/-- The tree changes at a place, and nowhere that is not below it. -/
structure Changed (files files' : Node) (p : List String) : Prop where
  elsewhere : ∀ q, ¬ p <+: q → (files'.at? q).map shape = (files.at? q).map shape
  here : (files'.at? p).map shape ≠ (files.at? p).map shape

/-- The first directory that is made when one is made with those above it. -/
structure Makes (files : Node) (names p : List String) : Prop where
  noNul : hasNul names = false
  short : isShort names = true
  missing : ∃ m, m <+: names ∧ walkShort files m = .ok ⟨p, none⟩

/-- The names lead to an empty directory below a place. -/
structure Arrives (files : Node) (names p : List String) : Prop where
  walks : ∃ u q, Walks files (fun _ => true) maxLinks [] (names.map Path.stepOf) u q ∧ p <+: q ∧
    files.at? q = some (.directory [])

variable {files files' : Node} {l names p q m : List String} {s : String} {value : Option Node}
  {entries : List (String × Node)} {place : Place} {f : Bool}

theorem Changed.below (h : Changed files files' p) (hp : p <+: q) (hn : p ≠ q) :
    Changed files (files'.set q value) p where
  elsewhere r hr := (shape_set fun hq => hr (hp.trans hq)).trans (h.elsewhere r hr)
  here hc := h.here ((shape_set fun hq => hn (hp.eq_of_length_le hq.length_le)).symm.trans hc)

theorem changed_set (hd : files.at? p = some (.directory entries))
    (hv : value.map shape ≠ (files.at? (p ++ [s])).map shape) :
    Changed files (files.set (p ++ [s]) value) (p ++ [s]) where
  elsewhere _ hq := shape_set hq
  here := by rwa [at?_set_self value hd]

theorem keeps_set (h : files.at? p = none) : Keeps files (files.set p value) := by
  intro q n hn
  have hp : ¬ p <+: q := fun hp => by
    obtain ⟨n', hn'⟩ := at?_above hn hp
    exact nomatch h.symm.trans hn'
  have hs : ((files.set p value).at? q).map shape = (files.at? q).map shape := shape_set hp
  rw [hn] at hs
  obtain ⟨n', hn', hs⟩ := Option.map_eq_some_iff.1 hs
  exact ⟨n', hn', kind_of_shape hs⟩

theorem Walks.concat (h : Walks files (fun _ => true) maxLinks [] (l.map Path.stepOf) u p)
    (hs : s ≠ "..") (f : Bool) :
    FileTree.walkFrom files (fun _ => true) maxLinks [] f ((l ++ [s]).map Path.stepOf) =
      FileTree.walkFrom files (fun _ => true) u p f [.name s] := by
  rw [map_stepOf_concat hs, h.walkFrom (.inr (List.cons_ne_nil _ _))]

theorem walkFrom_concat (hs : s ≠ "..")
    (h : walkFrom files (fun _ => true) maxLinks [] f ((l ++ [s]).map Path.stepOf) = .ok place) :
    ∃ u d entries, Walks files (fun _ => true) maxLinks [] (l.map Path.stepOf) u d ∧
      Fits (fun _ => true) d s ∧ files.at? d = some (.directory entries) ∧
      walkFrom files (fun _ => true) u d f [.name s] = .ok place := by
  have hw := h
  rw [map_stepOf_concat hs] at hw
  obtain ⟨u, d, hw⟩ := walks_of_walkFrom hw rfl (.inl (List.cons_ne_nil _ _))
  rw [hw.concat hs] at h
  obtain ⟨hf, entries, hd⟩ := fits_of_walkFrom h
  exact ⟨u, d, entries, hw, hf, hd, h⟩

theorem walkShort_place (hc : ".." ∉ names) (h : walkShort files names = .ok place)
    (hn : names ≠ []) : ∃ l s u d entries, names = l ++ [s] ∧ isShort names = true ∧
      Walks files (fun _ => true) maxLinks [] (l.map Path.stepOf) u d ∧ Fits (fun _ => true) d s ∧
      files.at? d = some (.directory entries) ∧ place = ⟨d ++ [s], files.at? (d ++ [s])⟩ := by
  rcases List.eq_nil_or_concat' names with rfl | ⟨l, s, rfl⟩
  · exact absurd rfl hn
  have hs := isShort_of_walkShort h
  rw [walkShort_eq hs] at h
  obtain ⟨u, d, entries, hw, hf, hd, h⟩ := walkFrom_concat (last_ne_parent hc) h
  rw [walkFrom_last hd hf] at h
  exact ⟨l, s, u, d, entries, rfl, hs, hw, hf, hd, (Except.ok.inj h).symm⟩

theorem walkShort_nil : walkShort files [] = .ok ⟨[], some files⟩ := by
  rw [walkShort_eq rfl, List.map_nil, walkFrom]
  rfl

theorem walkShort_beyond (hc : ".." ∉ names) (hs : isShort names = true)
    (h : walkShort files m = .ok ⟨p, none⟩) (hm : m <+: names) (hn : m ≠ names) :
    walkShort files names = .error .noEntry := by
  obtain ⟨r, rfl⟩ := hm
  have hm : m ≠ [] := by
    rintro rfl
    rw [walkShort_nil] at h
    cases h
  have hr : r ≠ [] := fun hr => hn (by rw [hr, List.append_nil])
  obtain ⟨l, s, u, d, entries, rfl, _, hw, hf, hd, hp⟩ :=
    walkShort_place (fun hm => hc (List.mem_append_left _ hm)) h hm
  have hnone := (Place.mk.inj hp).2
  rw [walkShort_eq hs, map_stepOf hc, List.append_assoc, List.map_append,
    ← map_stepOf fun hl => hc (List.mem_append_left _ (List.mem_append_left _ hl)),
    hw.walkFrom (.inr (by simp))]
  exact walkFrom_missing hd hf hnone.symm (by simpa using hr)

theorem makeDirectory_ok (h : makeDirectory files names = .ok files') :
    hasNul names = false ∧ ∃ p, walkShort files names = .ok ⟨p, none⟩ ∧
      files' = files.set p (some (.directory [])) := by
  rw [makeDirectory] at h
  split at h
  · cases h
  · next hn =>
    refine ⟨eq_false_of_ne_true hn, ?_⟩
    split at h
    · cases h
    · next hw => cases h; exact ⟨_, hw, rfl⟩
    · cases h

theorem makeDirectory_missing (hn : hasNul names = false)
    (h : walkShort files names = .ok ⟨p, none⟩) :
    makeDirectory files names = .ok (files.set p (some (.directory []))) := by
  rw [makeDirectory, hn, h]
  rfl

theorem makeDirectory_noEntry (h : makeDirectory files names = .error (.system .noEntry)) :
    hasNul names = false ∧ walkShort files names = .error .noEntry := by
  rw [makeDirectory] at h
  split at h
  · cases h
  · next hn =>
    refine ⟨eq_false_of_ne_true hn, ?_⟩
    split at h
    · cases h
    · cases h
    · next hw => cases h; exact hw

theorem makeDirectory_nil : makeDirectory files [] = .error (.system .alreadyThere) := by
  rw [makeDirectory, walkShort_nil]
  rfl

/-- Makes a directory, or takes the one that is there. -/
def settle (files : Node) (names : List String) : Except IoFault Node × Node :=
  match makeDirectory files names with
  | .ok files' => (.ok files', files')
  | .error e => if isDirectory files names then (.ok files, files) else (.error e, files)

theorem makeDirectories_ok (h : makeDirectory files names = .ok files') :
    makeDirectories files names = (.ok files', files') := by
  rw [makeDirectories, h]

theorem makeDirectories_beyond (h : makeDirectory files names = .error (.system .noEntry))
    (hn : names ≠ []) :
    makeDirectories files names =
      match makeDirectories files names.dropLast with
      | (.ok _, files') => settle files' names
      | (.error e, files') => (.error e, files') := by
  rw [makeDirectories, h]
  exact dif_neg hn

theorem makeDirectories_error (h : makeDirectory files names = .error e)
    (he : e ≠ .system .noEntry) : makeDirectories files names = settle files names := by
  rw [makeDirectories, settle, h]
  split
  · cases ‹Except.error e = .ok _›
  · next h' =>
    cases h'
    exact absurd rfl he
  · next h' => cases h'; rfl

theorem settle_error (h : makeDirectory files names = .error e) :
    (settle files names).2 = files := by
  rw [settle, h]
  change (if _ then _ else _ : Except IoFault Node × Node).2 = _
  split <;> rfl

theorem makeDirectory_error (hn : hasNul names = false) (h : walkShort files names = .error e) :
    makeDirectory files names = .error (.system e) := by
  rw [makeDirectory, hn, h]
  rfl

theorem makes_concat (hn : hasNul (names ++ [s]) = false) (hs : isShort (names ++ [s]) = true)
    (hw : ∀ p, walkShort files (names ++ [s]) ≠ .ok ⟨p, none⟩) :
    Makes files (names ++ [s]) p ↔ Makes files names p := by
  constructor
  · rintro ⟨_, _, m, hm, hp⟩
    rcases List.prefix_concat_iff.1 hm with rfl | hm
    · exact absurd hp (hw p)
    · exact ⟨(hasNul_append.1 hn).1, isShort_above hs (List.prefix_append ..), m, hm, hp⟩
  · rintro ⟨_, _, m, hm, hp⟩
    exact ⟨hn, hs, m, hm.trans (List.prefix_append ..), hp⟩

theorem makes_last (hc : ".." ∉ names) (hn : hasNul names = false)
    (h : walkShort files names = .ok ⟨p, none⟩) :
    Makes files names p ∧ Changed files (files.set p (some (.directory []))) p ∧
      Arrives (files.set p (some (.directory []))) names p := by
  have hne : names ≠ [] := by
    rintro rfl
    rw [walkShort_nil] at h
    cases h
  obtain ⟨l, s, u, d, entries, rfl, hs, hw, hf, hd, hp⟩ := walkShort_place hc h hne
  obtain ⟨rfl, hnone⟩ := Place.mk.inj hp
  have hdir : (files.set (d ++ [s]) (some (.directory []))).at? (d ++ [s]) =
      some (.directory []) := at?_set_self _ hd
  refine ⟨⟨hn, hs, _, List.prefix_refl _, h⟩, changed_set hd ?_, ⟨u, d ++ [s], ?_, ?_, hdir⟩⟩
  · rw [← hnone]
    nofun
  · rw [map_stepOf_concat (last_ne_parent hc)]
    exact (hw.keeps (keeps_set hnone.symm)).append (.enter hf hdir id .stop)
  · exact List.prefix_refl _

theorem Arrives.settle (h : Arrives files names p) (hn : hasNul (names ++ [s]) = false)
    (hs : isShort (names ++ [s]) = true) (hc : ".." ∉ names ++ [s]) :
    (∃ q, p <+: q ∧ p ≠ q ∧ Arrives (files.set q (some (.directory []))) (names ++ [s]) p ∧
      settle files (names ++ [s]) =
        (.ok (files.set q (some (.directory []))), files.set q (some (.directory [])))) ∨
    ∃ e, settle files (names ++ [s]) = (.error e, files) := by
  obtain ⟨u, q, hw, hpq, hq⟩ := h.walks
  have hsn := last_ne_parent hc
  by_cases hf : Fits (fun _ => true) q s
  · have hnone : files.at? (q ++ [s]) = none := at?_directory hq
    have hdir : (files.set (q ++ [s]) (some (.directory []))).at? (q ++ [s]) =
        some (.directory []) := at?_set_self _ hq
    refine .inl ⟨q ++ [s], hpq.trans (List.prefix_append ..), ?_, ⟨u, q ++ [s], ?_, ?_, hdir⟩, ?_⟩
    · rintro rfl
      exact absurd hpq.length_le (by simp)
    · rw [map_stepOf_concat hsn]
      exact (hw.keeps (keeps_set hnone)).append (.enter hf hdir id .stop)
    · exact hpq.trans (List.prefix_append ..)
    · have hm : walkShort files (names ++ [s]) = .ok ⟨q ++ [s], none⟩ := by
        rw [walkShort_eq hs, hw.concat hsn, walkFrom_name hq hf]
        rfl
      rw [FileTree.settle, makeDirectory_missing hn hm]
  · obtain ⟨e, he⟩ := walkFrom_too_long files u false [] hf
    obtain ⟨e', he'⟩ := walkFrom_too_long files u true [] hf
    have hd : isDirectory files (names ++ [s]) = false := by
      rw [isDirectory, find?, hn, walk_eq hs, hw.concat hsn, he']
      rfl
    rw [← hw.concat hsn, ← walkShort_eq hs] at he
    refine .inr ⟨.system e, ?_⟩
    rw [FileTree.settle, makeDirectory_error hn he, hd]
    rfl

theorem makeDirectories_spec (files : Node) (hc : ".." ∉ names) :
    ((makeDirectories files names).2 = files ∧ ∀ p, ¬ Makes files names p) ∨
    ∃ p, Makes files names p ∧ Changed files (makeDirectories files names).2 p ∧
      ∀ files', (makeDirectories files names).1 = .ok files' →
        Arrives (makeDirectories files names).2 names p := by
  induction names using List.reverseRecOn with
  | nil =>
    have hm : makeDirectory files [] = .error (.system .alreadyThere) := makeDirectory_nil
    refine .inl ⟨?_, fun p hp => ?_⟩
    · rw [makeDirectories_error hm (by simp), settle_error hm]
    · obtain ⟨m, hp, hw⟩ := hp.missing
      rw [List.prefix_nil.1 hp, walkShort_nil] at hw
      cases hw
  | append_singleton l s ih =>
    cases hm : makeDirectory files (l ++ [s]) with
    | ok files' =>
      obtain ⟨hn, p, hw, rfl⟩ := makeDirectory_ok hm
      obtain ⟨hp, hch, ha⟩ := makes_last hc hn hw
      rw [makeDirectories_ok hm]
      exact .inr ⟨p, hp, hch, fun _ _ => ha⟩
    | error e =>
      by_cases he : e = .system .noEntry
      · subst he
        obtain ⟨hn, hw⟩ := makeDirectory_noEntry hm
        have hs : isShort (l ++ [s]) = true := by
          refine eq_true_of_ne_false fun hs => ?_
          rw [walkShort, hs] at hw
          cases hw
        have hmk (p : List String) : Makes files (l ++ [s]) p ↔ Makes files l p := by
          refine makes_concat hn hs fun p hp => ?_
          rw [hw] at hp
          cases hp
        rw [makeDirectories_beyond hm (by simp), List.dropLast_concat]
        rcases hr : makeDirectories files l with ⟨r, files₁⟩
        have ih := ih fun hl => hc (List.mem_append_left _ hl)
        rw [hr] at ih
        rcases ih with ⟨rfl, hno⟩ | ⟨p, hp, hch, ha⟩
        · refine .inl ⟨?_, fun p hp => hno p ((hmk p).1 hp)⟩
          cases r with
          | ok => exact settle_error hm
          | error => rfl
        · refine .inr ⟨p, (hmk p).2 hp, ?_⟩
          cases r with
          | error => exact ⟨hch, fun _ h => by cases h⟩
          | ok files' =>
            rcases (ha files' rfl).settle hn hs hc with ⟨q, hpq, hne, hq, hst⟩ | ⟨e, hst⟩
            · simp only [hst]
              exact ⟨hch.below hpq hne, fun _ _ => hq⟩
            · simp only [hst]
              exact ⟨hch, fun _ h => by cases h⟩
      · refine .inl ⟨?_, fun p hp => ?_⟩
        · rw [makeDirectories_error hm he, settle_error hm]
        · obtain ⟨m, hp', hw⟩ := hp.missing
          by_cases hmn : m = l ++ [s]
          · rw [hmn] at hw
            rw [makeDirectory_missing hp.noNul hw] at hm
            cases hm
          · have hb := walkShort_beyond hc hp.short hw hp' hmn
            rw [makeDirectory_error hp.noNul hb] at hm
            cases hm
            exact he rfl

theorem Makes.unique (hc : ".." ∉ names) (hp : Makes files names p) (hq : Makes files names q) :
    p = q := by
  obtain ⟨m, hm, hp'⟩ := hp.missing
  obtain ⟨m', hm', hq'⟩ := hq.missing
  by_cases hmm : m = m'
  · rw [hmm, hq'] at hp'
    cases hp'
    rfl
  have hb {l l' : List String} {v v' : List String} (hl : l <+: l') (hl' : l' <+: names)
      (hne : l ≠ l') (hv : walkShort files l = .ok ⟨v, none⟩)
      (hv' : walkShort files l' = .ok ⟨v', none⟩) : p = q := by
    have hb := walkShort_beyond (fun hd => hc (hl'.subset hd)) (isShort_above hp.short hl') hv
      hl hne
    rw [hb] at hv'
    cases hv'
  rcases List.prefix_or_prefix_of_prefix hm hm' with h | h
  · exact hb h hm' hmm hp' hq'
  · exact hb h hm (Ne.symm hmm) hq' hp'

end FileTree

end Grapnel
