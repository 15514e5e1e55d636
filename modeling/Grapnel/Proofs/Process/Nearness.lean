import Grapnel.Proofs.Process.Descent

namespace Grapnel

namespace ProcessTable

variable {t : ProcessTable} {root pid n : Nat} {done queue front : List Nat}
  {found result ps : List ProcessInfo} {p : ProcessInfo}

/-- A chain of so many listed processes leads to a number, each naming the one before as its parent. -/
inductive Chain (t : ProcessTable) (root : Nat) : Nat → Nat → Prop where
  | start : Chain t root 0 root
  | further {n pid : Nat} {p : ProcessInfo} : Chain t root n pid → p ∈ t.processes →
      p.parent = some pid → Chain t root (n + 1) p.pid

/-- The length of the shortest chain that leads to a number. -/
noncomputable def depth (t : ProcessTable) (root pid : Nat) : Nat := sInf {n | t.Chain root n pid}

/-- A chain that is not longer leads to a number. -/
def Near (t : ProcessTable) (root n pid : Nat) : Prop := ∃ m ≤ n, t.Chain root m pid

theorem below_iff_chain : t.Below root pid ↔ ∃ n, t.Chain root (n + 1) pid := by
  constructor
  · intro h
    induction h with
    | child hp hparent => exact ⟨0, .further .start hp hparent⟩
    | further _ hp hparent ih =>
      obtain ⟨n, hn⟩ := ih
      exact ⟨n + 1, .further hn hp hparent⟩
  · rintro ⟨n, h⟩
    induction n generalizing pid with
    | zero =>
      cases h with
      | further h hp hparent =>
        cases h
        exact .child hp hparent
    | succ n ih =>
      cases h with
      | further h hp hparent => exact .further (ih h) hp hparent

theorem exists_chain_iff (h : pid ≠ root) : (∃ n, t.Chain root n pid) ↔ t.Below root pid := by
  rw [below_iff_chain]
  constructor
  · rintro ⟨n, hn⟩
    cases hn with
    | start => exact absurd rfl h
    | further hn hp hparent => exact ⟨_, .further hn hp hparent⟩
  · rintro ⟨n, hn⟩
    exact ⟨n + 1, hn⟩

theorem near_zero : t.Near root 0 pid ↔ pid = root := by
  constructor
  · rintro ⟨m, hm, h⟩
    cases h with
    | start => rfl
    | further => cases hm
  · rintro rfl
    exact ⟨0, le_rfl, .start⟩

theorem near_succ : t.Near root (n + 1) pid ↔
    pid = root ∨ ∃ above, t.Near root n above ∧ pid ∈ (t.children above).map (·.pid) := by
  constructor
  · rintro ⟨m, hm, h⟩
    cases h with
    | start => exact .inl rfl
    | further h hp hparent =>
      exact .inr ⟨_, ⟨_, Nat.le_of_succ_le_succ hm, h⟩,
        List.mem_map_of_mem (mem_children.2 ⟨hp, hparent⟩)⟩
  · rintro (rfl | ⟨above, ⟨m, hm, h⟩, hpid⟩)
    · exact ⟨0, Nat.zero_le _, .start⟩
    · obtain ⟨p, hp, rfl⟩ := List.mem_map.1 hpid
      obtain ⟨hp, hparent⟩ := mem_children.1 hp
      exact ⟨m + 1, Nat.succ_le_succ hm, .further h hp hparent⟩

theorem depth_le_iff (h : ∃ n, t.Chain root n pid) :
    t.depth root pid ≤ n ↔ t.Near root n pid := by
  constructor
  · exact fun hn => ⟨_, hn, Nat.sInf_mem h⟩
  · rintro ⟨m, hm, h⟩
    exact le_trans (Nat.sInf_le h) hm

theorem Ends.isPrefix (h : t.Ends root queue found result) : found <+: result := by
  induction h with
  | empty => exact List.prefix_refl _
  | turn _ ih => exact (List.prefix_append ..).trans ih

/-- At any time the processes found are those whose parents are done. -/
structure Sprung (t : ProcessTable) (root : Nat) (done queue : List Nat) (found : List ProcessInfo) :
    Prop extends Search t root done queue found where
  sprung : ∀ p ∈ found, ∃ above ∈ done, p ∈ t.children above

namespace Sprung

theorem begin (t : ProcessTable) (root : Nat) : Sprung t root [] [root] [] where
  toSearch := Search.begin t root
  sprung := by simp

theorem next (h : Sprung t root done (pid :: queue) found) :
    Sprung t root (done ++ [pid]) (queue ++ (newcomers root found (t.children pid)).map (·.pid))
      (found ++ newcomers root found (t.children pid)) where
  toSearch := h.toSearch.next
  sprung := by
    intro p hp
    rcases List.mem_append.1 hp with hold | hnew
    · obtain ⟨above, hdone, hp⟩ := h.sprung p hold
      exact ⟨above, List.mem_append_left _ hdone, hp⟩
    · exact ⟨pid, List.mem_append_right _ List.mem_cons_self, mem_newcomers hnew⟩

theorem mem_iff (h : Sprung t root done queue found) : pid ∈ root :: found.map (·.pid) ↔
    pid = root ∨ ∃ above ∈ done, pid ∈ (t.children above).map (·.pid) := by
  constructor
  · intro hpid
    rcases List.mem_cons.1 hpid with rfl | hpid
    · exact .inl rfl
    · obtain ⟨p, hp, rfl⟩ := List.mem_map.1 hpid
      obtain ⟨above, hdone, hp⟩ := h.sprung p hp
      exact .inr ⟨above, hdone, List.mem_map_of_mem hp⟩
  · rintro (rfl | ⟨above, hdone, hpid⟩)
    · exact List.mem_cons_self
    · obtain ⟨p, hp, rfl⟩ := List.mem_map.1 hpid
      exact h.closed above hdone p hp

/-- Whatever part of the numbers comes first, their children come first too. -/
theorem children_front (h : Sprung t root done queue found) (he : t.Ends root queue found result)
    (hdone : done <+: front) (hfront : front <+: root :: result.map (·.pid)) :
    ∃ next, next <+: root :: result.map (·.pid) ∧ ∀ pid, pid ∈ next ↔
      pid = root ∨ ∃ above ∈ front, pid ∈ (t.children above).map (·.pid) := by
  -- The turn after which all of the front is done has found its children, and nothing else yet.
  induction he generalizing done with
  | @empty found =>
    refine ⟨root :: found.map (·.pid), List.prefix_refl _, fun pid => ?_⟩
    rw [← h.numbers, List.append_nil] at hfront
    exact hdone.eq_of_length_le hfront.length_le ▸ h.mem_iff
  | @turn pid queue found result he ih =>
    have hfound : root :: found.map (·.pid) <+: root :: result.map (·.pid) :=
      (List.prefix_cons_inj root).2 ((he.turn.isPrefix).map _)
    by_cases heq : done = front
    · exact ⟨_, hfound, fun pid => heq ▸ h.mem_iff⟩
    · have hlt : done.length < front.length :=
        lt_of_le_of_ne hdone.length_le fun hl => heq (hdone.eq_of_length hl)
      rw [← h.numbers, List.append_cons] at hfound
      refine ih h.next (List.prefix_of_prefix_length_le
        ((List.prefix_append ..).trans hfound) hfront ?_) hfront
      rw [List.length_append, List.length_singleton]
      exact hlt

end Sprung

/-- The numbers that chains of at most some length lead to stand at the front. -/
theorem near_front (t : ProcessTable) (root n : Nat) :
    ∃ front, front <+: root :: (t.descendants root).map (·.pid) ∧
      ∀ pid, pid ∈ front ↔ t.Near root n pid := by
  induction n with
  | zero =>
    refine ⟨[root], (List.prefix_cons_inj root).2 List.nil_prefix, fun pid => ?_⟩
    rw [near_zero, List.mem_singleton]
  | succ n ih =>
    obtain ⟨front, hfront, hmem⟩ := ih
    obtain ⟨next, hnext, hmem'⟩ := (Sprung.begin t root).children_front (ends_descendants t root)
      List.nil_prefix hfront
    refine ⟨next, hnext, fun pid => ?_⟩
    simp only [hmem', near_succ, hmem]

theorem pairwise_front {numbers : List Nat} (hn : numbers.Nodup) (hf : front <+: numbers) :
    numbers.Pairwise fun a b => b ∈ front → a ∈ front := by
  obtain ⟨rest, rfl⟩ := hf
  rw [List.pairwise_append]
  refine ⟨List.pairwise_of_forall_mem_list fun a ha _ _ _ => ha, ?_, fun a ha _ _ _ => ha⟩
  refine List.pairwise_of_forall_mem_list fun a _ b hb hbf => ?_
  exact absurd rfl ((List.nodup_append.1 hn).2.2 b hbf b hb)

/-- The search for the processes below a number ends, finds each number once that some chain leads
to, the root apart, and finds nearer ones first. -/
theorem descendants_nearest_first (t : ProcessTable) (root : Nat) :
    t.Ends root [root] [] (t.descendants root) ∧
    t.descendants root ⊆ t.processes ∧
    ((t.descendants root).map (·.pid)).Nodup ∧
    (∀ pid, pid ∈ (t.descendants root).map (·.pid) ↔
      pid ≠ root ∧ ∃ n, t.Chain root n pid) ∧
    ((t.descendants root).map (·.pid)).Pairwise
      fun pid pid' => t.depth root pid ≤ t.depth root pid' := by
  have hnodup := nodup_descendants t root
  have hmem (pid : Nat) : pid ∈ (t.descendants root).map (·.pid) ↔
      pid ≠ root ∧ ∃ n, t.Chain root n pid := by
    rw [pid_mem_descendants, and_comm]
    exact and_congr_right fun hne => (exists_chain_iff hne).symm
  refine ⟨ends_descendants t root, fun p hp => (mem_descendants hp).1,
    (List.nodup_cons.1 hnodup).2, hmem, ?_⟩
  -- Nearness is compared length by length, so that no two depths have to be computed.
  have hnear (n : Nat) : ((t.descendants root).map (·.pid)).Pairwise
      fun pid pid' => t.Near root n pid' → t.Near root n pid := by
    obtain ⟨front, hfront, hfmem⟩ := near_front t root n
    have hpair := (List.pairwise_cons.1 (pairwise_front hnodup hfront)).2
    exact hpair.imp fun h => by simpa only [hfmem] using h
  rw [List.pairwise_iff_getElem]
  intro i j hi hj hij
  have hchain {k : Nat} (hk : k < ((t.descendants root).map (·.pid)).length) :=
    ((hmem _).1 (List.getElem_mem hk)).2
  rw [depth_le_iff (hchain hi)]
  exact List.pairwise_iff_getElem.1 (hnear _) i j hi hj hij ((depth_le_iff (hchain hj)).1 le_rfl)

/-- Numbers that are used twice, and a chain that goes round. -/
example : (ProcessTable.descendants ⟨[⟨1, "a", [], none, some 3, .none⟩,
    ⟨3, "b", [], none, some 2, .none⟩, ⟨2, "c", [], none, some 1, .none⟩,
    ⟨3, "d", [], none, some 1, .none⟩]⟩ 1).map (·.name) = ["c", "d"] := by decide

end ProcessTable

end Grapnel
