import Mathlib
import Grapnel.Process.Table

namespace Grapnel

namespace ProcessTable

variable {t : ProcessTable} {root pid fuel : Nat} {done queue : List Nat}
  {found ps result : List ProcessInfo} {p : ProcessInfo}

/-- A chain of listed processes leads to a number, each naming the one before as its parent. -/
inductive Below (t : ProcessTable) (root : Nat) : Nat → Prop
  | child {p : ProcessInfo} : p ∈ t.processes → p.parent = some root → Below t root p.pid
  | further {pid : Nat} {p : ProcessInfo} : Below t root pid → p ∈ t.processes →
      p.parent = some pid → Below t root p.pid

/-- No two processes have one number. -/
def Distinct (t : ProcessTable) : Prop := (t.processes.map (·.pid)).Nodup

theorem Distinct.eq {q : ProcessInfo} (h : t.Distinct) (hp : p ∈ t.processes)
    (hq : q ∈ t.processes) (hpid : p.pid = q.pid) : p = q :=
  List.inj_on_of_nodup_map h hp hq hpid

theorem mem_children : p ∈ t.children pid ↔ p ∈ t.processes ∧ p.parent = some pid := by
  rw [children, List.mem_filter, decide_eq_true_iff]

theorem mem_newcomers (h : p ∈ newcomers root found ps) : p ∈ ps := by
  induction ps generalizing found with
  | nil => exact h
  | cons q ps ih =>
    rw [newcomers] at h
    split at h
    · exact List.mem_cons_of_mem q (ih h)
    · rcases List.mem_cons.1 h with heq | hmem
      · exact heq ▸ List.mem_cons_self
      · exact List.mem_cons_of_mem q (ih hmem)

theorem any_pid : found.any (·.pid = pid) = true ↔ pid ∈ found.map (·.pid) := by
  simp only [List.any_eq_true, List.mem_map, decide_eq_true_eq]

theorem nodup_newcomers (h : (root :: found.map (·.pid)).Nodup) :
    (root :: (found ++ newcomers root found ps).map (·.pid)).Nodup := by
  induction ps generalizing found with
  | nil =>
    rw [newcomers, List.append_nil]
    exact h
  | cons q ps ih =>
    rw [newcomers]
    split
    · exact ih h
    · next hnew =>
      rw [any_pid, not_or] at hnew
      rw [List.append_cons]
      apply ih
      rw [List.map_append, List.map_singleton, ← List.cons_append, List.nodup_append]
      refine ⟨h, List.nodup_singleton _, ?_⟩
      intro a ha b hb heq
      rw [List.mem_singleton.1 hb] at heq
      rcases List.mem_cons.1 ha with hroot | hmem
      · exact hnew.1 (heq.symm.trans hroot)
      · exact hnew.2 (heq ▸ hmem)

theorem pid_mem_newcomers (h : p ∈ ps) :
    p.pid ∈ root :: (found ++ newcomers root found ps).map (·.pid) := by
  induction ps generalizing found with
  | nil => cases h
  | cons q ps ih =>
    rw [newcomers]
    split
    · next hold =>
      rcases List.mem_cons.1 h with heq | hmem
      · rw [any_pid] at hold
        rw [heq, List.map_append]
        rcases hold with hroot | hmem
        · exact hroot ▸ List.mem_cons_self
        · exact List.mem_cons_of_mem _ (List.mem_append_left _ hmem)
      · exact ih hmem
    · rw [List.append_cons]
      rcases List.mem_cons.1 h with heq | hmem
      · rw [heq]
        simp
      · exact ih hmem

/-- The search as it runs: turn by turn, until nothing is left in the queue. -/
inductive Ends (t : ProcessTable) (root : Nat) :
    List Nat → List ProcessInfo → List ProcessInfo → Prop where
  | empty {found : List ProcessInfo} : Ends t root [] found found
  | turn {pid : Nat} {queue : List Nat} {found result : List ProcessInfo} :
      Ends t root (queue ++ (newcomers root found (t.children pid)).map (·.pid))
        (found ++ newcomers root found (t.children pid)) result →
      Ends t root (pid :: queue) found result

/-- What is kept while numbers go through the queue: those that are done and those that wait are the
root and what was found, and the children of what is done are among them. -/
structure Search (t : ProcessTable) (root : Nat) (done queue : List Nat) (found : List ProcessInfo) :
    Prop where
  numbers : done ++ queue = root :: found.map (·.pid)
  nodup : (root :: found.map (·.pid)).Nodup
  listed : ∀ p ∈ found, p ∈ t.processes ∧ t.Below root p.pid
  closed : ∀ pid ∈ done, ∀ p ∈ t.children pid, p.pid ∈ root :: found.map (·.pid)

namespace Search

theorem begin (t : ProcessTable) (root : Nat) : Search t root [] [root] [] where
  numbers := rfl
  nodup := List.nodup_singleton root
  listed := by simp
  closed := by simp

theorem next (h : Search t root done (pid :: queue) found) :
    Search t root (done ++ [pid]) (queue ++ (newcomers root found (t.children pid)).map (·.pid))
      (found ++ newcomers root found (t.children pid)) where
  numbers := by
    have hn := h.numbers
    rw [List.append_cons] at hn
    rw [← List.append_assoc, hn, List.map_append, List.cons_append]
  nodup := nodup_newcomers h.nodup
  listed := by
    intro p hp
    rcases List.mem_append.1 hp with hold | hnew
    · exact h.listed p hold
    · obtain ⟨hp, hparent⟩ := mem_children.1 (mem_newcomers hnew)
      have hpid : pid ∈ root :: found.map (·.pid) := by
        rw [← h.numbers]
        simp
      refine ⟨hp, ?_⟩
      rcases List.mem_cons.1 hpid with hroot | hmem
      · exact .child hp (hroot ▸ hparent)
      · obtain ⟨q, hq, hqpid⟩ := List.mem_map.1 hmem
        exact .further (h.listed q hq).2 hp (hqpid ▸ hparent)
  closed := by
    intro pid' hdone p hp
    rcases List.mem_append.1 hdone with hdone | hlast
    · have hmem := h.closed pid' hdone p hp
      rw [List.map_append, ← List.cons_append]
      exact List.mem_append_left _ hmem
    · rw [List.mem_singleton.1 hlast] at hp
      exact pid_mem_newcomers hp

theorem length_le (h : Search t root done queue found) :
    done.length + queue.length ≤ t.processes.length + 1 := by
  have hsub : found.map (·.pid) ⊆ t.processes.map (·.pid) := by
    intro pid hpid
    obtain ⟨p, hp, rfl⟩ := List.mem_map.1 hpid
    exact List.mem_map_of_mem (h.listed p hp).1
  have hle := ((List.nodup_cons.1 h.nodup).2.subperm hsub).length_le
  have hn := congrArg List.length h.numbers
  rw [List.length_append, List.length_cons, List.length_map] at hn
  rw [List.length_map, List.length_map] at hle
  omega

theorem ends (h : Search t root done queue found)
    (hfuel : t.processes.length + 1 ≤ fuel + done.length) :
    t.Ends root queue found (t.searchFrom root fuel queue found) := by
  induction fuel generalizing done queue found with
  | zero =>
    have hle := h.length_le
    have hempty : queue = [] := List.length_eq_zero_iff.1 (by omega)
    rw [hempty, ProcessTable.searchFrom]
    exact .empty
  | succ fuel ih =>
    cases queue with
    | nil => exact .empty
    | cons pid queue =>
      rw [ProcessTable.searchFrom]
      refine .turn (ih h.next ?_)
      rw [List.length_append, List.length_singleton]
      omega

theorem finish (h : Search t root done queue found) (he : t.Ends root queue found result) :
    ∃ done', Search t root done' [] result := by
  induction he generalizing done with
  | empty => exact ⟨done, h⟩
  | turn _ ih => exact ih h.next

/-- Where the queue is empty, nothing below the root is left out. -/
theorem complete (h : Search t root done [] found) (hbelow : t.Below root pid) :
    pid ∈ root :: found.map (·.pid) := by
  have hdone : done = root :: found.map (·.pid) := by
    rw [← h.numbers, List.append_nil]
  induction hbelow with
  | child hp hparent =>
    apply h.closed root _ _ (mem_children.2 ⟨hp, hparent⟩)
    rw [hdone]
    exact List.mem_cons_self
  | further _ hp hparent ih => exact h.closed _ (hdone ▸ ih) _ (mem_children.2 ⟨hp, hparent⟩)

end Search

theorem ends_descendants (t : ProcessTable) (root : Nat) :
    t.Ends root [root] [] (t.descendants root) :=
  (Search.begin t root).ends (by simp)

theorem search_descendants (t : ProcessTable) (root : Nat) :
    ∃ done, Search t root done [] (t.descendants root) :=
  (Search.begin t root).finish (ends_descendants t root)

theorem nodup_descendants (t : ProcessTable) (root : Nat) :
    (root :: (t.descendants root).map (·.pid)).Nodup := by
  obtain ⟨done, h⟩ := search_descendants t root
  exact h.nodup

theorem mem_descendants (h : p ∈ t.descendants root) : p ∈ t.processes ∧ t.Below root p.pid := by
  obtain ⟨done, hsearch⟩ := search_descendants t root
  exact hsearch.listed p h

theorem pid_mem_descendants :
    pid ∈ (t.descendants root).map (·.pid) ↔ t.Below root pid ∧ pid ≠ root := by
  constructor
  · intro hmem
    obtain ⟨p, hp, rfl⟩ := List.mem_map.1 hmem
    refine ⟨(mem_descendants hp).2, ?_⟩
    rintro rfl
    exact (List.nodup_cons.1 (nodup_descendants t p.pid)).1 hmem
  · rintro ⟨hbelow, hne⟩
    obtain ⟨done, h⟩ := search_descendants t root
    exact (List.mem_cons.1 (h.complete hbelow)).resolve_left hne

theorem Distinct.mem_descendants_iff (h : t.Distinct) :
    p ∈ t.descendants root ↔ p ∈ t.processes ∧ t.Below root p.pid ∧ p.pid ≠ root := by
  rw [← pid_mem_descendants]
  constructor
  · exact fun hp => ⟨(mem_descendants hp).1, List.mem_map_of_mem hp⟩
  · rintro ⟨hp, hmem⟩
    obtain ⟨q, hq, hpid⟩ := List.mem_map.1 hmem
    exact h.eq (mem_descendants hq).1 hp hpid ▸ hq

end ProcessTable

end Grapnel
