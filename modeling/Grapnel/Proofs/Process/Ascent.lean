import Grapnel.Proofs.Process.Descent

namespace Grapnel

namespace ProcessTable

variable {t : ProcessTable} {root pid fuel : Nat} {parent : Option Nat}
  {found result : List ProcessInfo} {p q a : ProcessInfo}

/-- The climb as it runs: upwards until there is no parent, or none that is listed, or one that
was met before. -/
inductive Climbs (t : ProcessTable) (root : Nat) :
    Option Nat → List ProcessInfo → List ProcessInfo → Prop where
  | top {found : List ProcessInfo} : Climbs t root none found found
  | missing {pid : Nat} {found : List ProcessInfo} : t.get? pid = none →
      Climbs t root (some pid) found found
  | again {pid : Nat} {p : ProcessInfo} {found : List ProcessInfo} : t.get? pid = some p →
      p.pid ∈ root :: found.map (·.pid) → Climbs t root (some pid) found found
  | further {pid : Nat} {p : ProcessInfo} {found result : List ProcessInfo} :
      t.get? pid = some p → p.pid ∉ root :: found.map (·.pid) →
      Climbs t root p.parent (found ++ [p]) result → Climbs t root (some pid) found result

theorem get?_some (h : t.get? pid = some p) : p ∈ t.processes ∧ p.pid = pid :=
  ⟨List.mem_reverse.1 (List.mem_of_find?_eq_some h), by simpa using List.find?_some h⟩

theorem Distinct.get? (h : t.Distinct) (hp : p ∈ t.processes) : t.get? p.pid = some p := by
  cases hg : t.get? p.pid with
  | none =>
    have hno := List.find?_eq_none.1 hg p (List.mem_reverse.2 hp)
    exact absurd (decide_eq_true rfl) hno
  | some q =>
    obtain ⟨hq, hpid⟩ := get?_some hg
    rw [h.eq hq hp hpid]

theorem Below.trans {above below : Nat} (h : t.Below root above) (h' : t.Below above below) :
    t.Below root below := by
  induction h' with
  | child hp hparent => exact .further h hp hparent
  | further _ hp hparent ih => exact .further ih hp hparent

theorem Below.listed (h : t.Below root pid) : ∃ p ∈ t.processes, p.pid = pid := by
  cases h with
  | child hp => exact ⟨_, hp, rfl⟩
  | further _ hp => exact ⟨_, hp, rfl⟩

/-- What is kept on the way up from a process: each one met is the parent of the one before, and the
climb goes on with the parent of the last. -/
structure Lineage (t : ProcessTable) (p : ProcessInfo) (parent : Option Nat)
    (found : List ProcessInfo) : Prop where
  nodup : ((p :: found).map (·.pid)).Nodup
  listed : ∀ q ∈ p :: found, q ∈ t.processes
  linked : (p :: found).IsChain fun q r => q.parent = some r.pid
  last : ∀ q ∈ (p :: found).getLast?, q.parent = parent
  above : ∀ q ∈ found, t.Below q.pid p.pid

namespace Lineage

theorem begin (hp : p ∈ t.processes) : Lineage t p p.parent [] where
  nodup := List.nodup_singleton _
  listed := by simpa using hp
  linked := List.isChain_singleton p
  last := by simp
  above := by simp

theorem next (h : Lineage t p (some pid) found) (hq : t.get? pid = some q)
    (hnew : q.pid ∉ p.pid :: found.map (·.pid)) : Lineage t p q.parent (found ++ [q]) where
  nodup := by
    rw [← List.cons_append, List.map_append, List.map_singleton, ← List.concat_eq_append]
    exact h.nodup.concat hnew
  listed := by
    intro r hr
    rcases List.mem_append.1 (List.cons_append ▸ hr) with hold | hlast
    · exact h.listed r hold
    · exact List.mem_singleton.1 hlast ▸ (get?_some hq).1
  linked := by
    rw [← List.cons_append, List.isChain_append]
    refine ⟨h.linked, List.isChain_singleton q, fun r hr s hs => ?_⟩
    cases hs
    rw [h.last r hr, (get?_some hq).2]
  last := by
    intro r hr
    rw [← List.cons_append, List.getLast?_concat] at hr
    cases hr
    rfl
  above := by
    intro r hr
    rcases List.mem_append.1 hr with hold | hlast
    · exact h.above r hold
    rw [List.mem_singleton.1 hlast]
    have hs := List.getLast?_eq_some_getLast (List.cons_ne_nil p found)
    generalize (p :: found).getLast _ = s at hs
    have hmem := List.mem_of_getLast? hs
    have hbelow : t.Below q.pid s.pid :=
      .child (h.listed s hmem) ((h.last s hs).trans (congrArg some (get?_some hq).2.symm))
    rcases List.mem_cons.1 hmem with rfl | hfound
    · exact hbelow
    · exact hbelow.trans (h.above s hfound)

theorem length_le (h : Lineage t p parent found) : found.length + 1 ≤ t.processes.length := by
  have hsub : (p :: found).map (·.pid) ⊆ t.processes.map (·.pid) := by
    intro pid hpid
    obtain ⟨q, hq, rfl⟩ := List.mem_map.1 hpid
    exact List.mem_map_of_mem (h.listed q hq)
  have hle := (h.nodup.subperm hsub).length_le
  rwa [List.length_map, List.length_map, List.length_cons] at hle

/-- The fuel lasts until the climb ends. -/
theorem climbs (h : Lineage t p parent found) (hfuel : t.processes.length ≤ fuel + found.length) :
    t.Climbs p.pid parent found (t.climbFrom p.pid fuel parent found) := by
  induction fuel generalizing parent found with
  | zero =>
    have hle := h.length_le
    omega
  | succ fuel ih =>
    cases parent with
    | none => exact .top
    | some pid =>
      rw [climbFrom]
      split
      · next q hq =>
        split
        · next hmet =>
          rw [any_pid, ← List.mem_cons] at hmet
          exact .again hq hmet
        · next hnew =>
          rw [any_pid, ← List.mem_cons] at hnew
          refine .further hq hnew (ih (h.next hq hnew) ?_)
          rw [List.length_append, List.length_singleton]
          omega
      · next hq => exact .missing hq

theorem ends (h : Lineage t p parent found) (hd : t.Distinct)
    (hc : t.Climbs p.pid parent found result) : ∃ parent, Lineage t p parent result ∧
      ∀ q ∈ t.processes, parent = some q.pid → q ∈ p :: result := by
  induction hc with
  | top => exact ⟨none, h, nofun⟩
  | missing hq =>
    refine ⟨_, h, fun q hmem hpid => ?_⟩
    cases hpid
    rw [hd.get? hmem] at hq
    cases hq
  | again hq hmet =>
    refine ⟨_, h, fun r hmem hpid => ?_⟩
    cases hpid
    rw [hd.get? hmem] at hq
    cases hq
    obtain ⟨s, hs, hpid⟩ := List.mem_map.1 (List.map_cons ▸ hmet)
    exact hd.eq (h.listed s hs) hmem hpid ▸ hs
  | further hq hnew _ ih => exact ih (h.next hq hnew)

theorem closed (h : Lineage t p parent found) (hd : t.Distinct)
    (hend : ∀ q ∈ t.processes, parent = some q.pid → q ∈ p :: found) :
    ∀ q ∈ p :: found, ∀ r ∈ t.processes, q.parent = some r.pid → r ∈ p :: found := by
  intro q hq r hr hparent
  obtain ⟨before, after, hsplit⟩ := List.append_of_mem hq
  cases after with
  | nil =>
    have hlast := h.last q (by rw [hsplit, List.getLast?_concat]; rfl)
    exact hend r hr (hlast.symm.trans hparent)
  | cons s after =>
    have hlink := h.linked
    rw [hsplit, List.isChain_append, List.isChain_cons_cons] at hlink
    have hs : s ∈ p :: found := by rw [hsplit]; simp
    have hpid : s.pid = r.pid := Option.some.inj (hlink.2.1.1.symm.trans hparent)
    exact hd.eq (h.listed s hs) hr hpid ▸ hs

/-- What is closed under parents holds all that the process is below. -/
theorem complete (h : Lineage t p parent found) (hd : t.Distinct)
    (hend : ∀ q ∈ t.processes, parent = some q.pid → q ∈ p :: found) (ha : a ∈ t.processes)
    (hbelow : t.Below a.pid p.pid) : a ∈ p :: found := by
  -- Down the chain from `a`: whoever has a number on it and was met leads up to `a` again.
  suffices hup : ∀ pid, t.Below a.pid pid → ∀ q ∈ p :: found, q.pid = pid → a ∈ p :: found from
    hup p.pid hbelow p List.mem_cons_self rfl
  intro pid hbelow
  induction hbelow with
  | child hp hparent =>
    intro q hq hpid
    rw [← hd.eq (h.listed q hq) hp hpid] at hparent
    exact h.closed hd hend q hq a ha hparent
  | further hbelow hp hparent ih =>
    intro q hq hpid
    rw [← hd.eq (h.listed q hq) hp hpid] at hparent
    obtain ⟨r, hr, rfl⟩ := hbelow.listed
    exact ih r (h.closed hd hend q hq r hr hparent) rfl

end Lineage

/-- Where no two processes have one number, one process is above another just when the other is found
below it. The way up ends, meets no process twice, and goes from each one to its parent. -/
theorem ancestors_dual (h : t.Distinct) (hp : p ∈ t.processes) :
    (∀ a ∈ t.processes, a ∈ t.ancestors p.pid ↔ p ∈ t.descendants a.pid) ∧
    t.Climbs p.pid p.parent [] (t.ancestors p.pid) ∧
    t.ancestors p.pid ⊆ t.processes ∧
    ((t.ancestors p.pid).map (·.pid)).Nodup ∧
    (p :: t.ancestors p.pid).IsChain fun q r => q.parent = some r.pid := by
  have hclimbs : t.Climbs p.pid p.parent [] (t.ancestors p.pid) := by
    rw [ancestors, h.get? hp]
    exact (Lineage.begin hp).climbs (by simp)
  obtain ⟨parent, hl, hend⟩ := (Lineage.begin hp).ends h hclimbs
  have hnodup := List.nodup_cons.1 (List.map_cons ▸ hl.nodup)
  refine ⟨fun a ha => ?_, hclimbs, fun q hq => hl.listed q (List.mem_cons_of_mem p hq), hnodup.2,
    hl.linked⟩
  rw [h.mem_descendants_iff]
  constructor
  · intro hmem
    refine ⟨hp, hl.above a hmem, fun hpid => hnodup.1 ?_⟩
    exact List.mem_map.2 ⟨a, hmem, hpid.symm⟩
  · rintro ⟨_, hbelow, hne⟩
    refine (List.mem_cons.1 (hl.complete h hend ha hbelow)).resolve_left ?_
    rintro rfl
    exact hne rfl

/-- Two processes that are each other's parents, with one below them; another's parent is gone. -/
def roundFamily : ProcessTable where
  processes := [⟨1, "init", [], none, some 2, .none⟩, ⟨2, "shell", [], none, some 1, .none⟩,
    ⟨3, "game", [], none, some 2, .none⟩, ⟨4, "orphan", [], none, some 9, .none⟩]

theorem ancestors_dual_roundFamily :
    (roundFamily.ancestors 3).map (·.pid) = [2, 1] ∧
    (roundFamily.descendants 1).map (·.pid) = [2, 3] ∧
    ⟨1, "init", [], none, some 2, .none⟩ ∈ roundFamily.ancestors 3 ∧
    roundFamily.Climbs 3 (some 2) [] (roundFamily.ancestors 3) := by
  have hdistinct : roundFamily.Distinct := by
    unfold Distinct
    decide
  obtain ⟨hdual, hclimbs, _⟩ := ancestors_dual (p := ⟨3, "game", [], none, some 2, .none⟩)
    hdistinct (by decide)
  exact ⟨by decide, by decide, (hdual _ (by decide)).2 (by decide), hclimbs⟩

end ProcessTable

end Grapnel
