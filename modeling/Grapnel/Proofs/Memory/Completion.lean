import Grapnel.Proofs.Memory.WindowedScan

namespace Grapnel

variable {ε σ α : Type} {s : σ}

theorem outcome_tryCatch (x : ExceptT ε (StateM σ) α) (f : ε → ExceptT ε (StateM σ) α) (s : σ) :
    outcome (tryCatch x f) s =
      match outcome x s with
      | (.ok a, s') => (.ok a, s')
      | (.error e, s') => outcome (f e) s' := by
  have hx : StateT.run x s = x.run.run s := rfl
  change (ExceptT.tryCatch x f).run.run s = _
  rw [ExceptT.tryCatch, ExceptT.run_mk, StateT.run_bind, outcome, hx]
  cases h : x.run.run s with
  | mk r s' => cases r <;> rfl

namespace Scan

variable {W : Type} {read : Address → Nat → W → Option (List UInt8) × W} {a start : Address}
  {p : BytePattern} {overlap left step length chunk offset : Nat} {firstOnly : Bool} {w : W}
  {content : List UInt8}

/-- A read that is granted gives as many bytes as were asked for. -/
def Whole (read : Address → Nat → W → Option (List UInt8) × W) : Prop :=
  ∀ a size w content w', read a size w = (some content, w') → content.length = size

theorem readWindow_fits (hread : Whole read) (hfit : step + overlap < wordLimit)
    (positive : 0 < step) (h : readWindow read a overlap left step positive w = (result, w')) :
    ∃ window, result = .ok window ∧ ∀ v ∈ window, v.step ≤ step ∧ v.content.length ≤ left := by
  fun_induction readWindow read a overlap left step positive w with
  | case1 step positive w trap hc =>
    rw [addChecked, if_pos hfit] at hc
    cases hc
  | case2 step positive w size hc content w₁ hw =>
    cases h
    refine ⟨_, rfl, ?_⟩
    intro v hv
    cases hv
    have hlen := hread _ _ _ _ _ hw
    exact ⟨Nat.le_refl _, hlen ▸ Nat.min_le_right _ _⟩
  | case3 =>
    cases h
    exact ⟨none, rfl, fun v hv => by cases hv⟩
  | case4 step positive w size hc w₁ hw hhalf ih =>
    obtain ⟨window, rfl, hv⟩ := ih (by omega) h
    refine ⟨window, rfl, ?_⟩
    intro v hmem
    exact ⟨Nat.le_trans (hv v hmem).1 (Nat.div_le_self _ _), (hv v hmem).2⟩

theorem matchesIn_fits (hlen : content.length ≤ left) (hfit : a.toNat + left < wordLimit) :
    ∃ found, matchesIn p a firstOnly content = .ok found := by
  have hp := p.length_pos
  refine ⟨_, mapM_ok (g := a.above) ?_⟩
  intro i hi
  have hmem : i ∈ p.findAll content.toArray := by
    split at hi
    · exact List.mem_of_mem_take hi
    · exact hi
  have hbound := BytePattern.matchesAt_bound (BytePattern.mem_findAll.1 hmem)
  rw [List.size_toArray] at hbound
  exact Address.add_eq_above (by omega)

/-- A scan of a range that fits into a word with the pattern does not stop at an overflow. -/
theorem scanFrom_fits (hread : Whole read) (hstart : start.toNat + length < wordLimit)
    (hlength : length + p.length < wordLimit) (hoffset : offset ≤ length) :
    ∃ found w', scanFrom read p start length chunk firstOnly offset w = (.ok found, w') := by
  have hp := p.length_pos
  fun_induction scanFrom read p start length chunk firstOnly offset w with
  | case1 => omega
  | case2 => exact ⟨_, _, rfl⟩
  | case3 offset w positive hfit hlt trap hadd =>
    rw [Address.add_eq_above (by omega)] at hadd
    cases hadd
  | case4 offset w positive hfit hlt a hadd window trap w₁ hwindow =>
    obtain ⟨_, hr, _⟩ := readWindow_fits hread (by omega) _ hwindow
    cases hr
  | case5 offset w positive hfit hlt a hadd window w₁ hwindow ih => exact ih (by omega)
  | case6 offset w positive hfit hlt a hadd window step hstep content w₁ hwindow trap hm =>
    -- the window ends within the range, and so do the places of its matches
    rw [Address.add_eq_above (by omega)] at hadd
    cases hadd
    obtain ⟨_, hr, hv⟩ := readWindow_fits hread (by omega) _ hwindow
    cases hr
    have hcontent := (hv _ rfl).2
    have ha := Address.toNat_above (a := start) (n := offset) (by omega)
    obtain ⟨found, hfound⟩ : ∃ found, matchesIn p (start.above offset) firstOnly content = .ok found :=
      matchesIn_fits hcontent (by omega)
    rw [hfound] at hm
    cases hm
  | case7 => exact ⟨_, _, rfl⟩
  | case8 offset w positive hfit hlt a hadd window step hstep content w₁ hwindow found hm hf rest w₂
      hrest ih =>
    obtain ⟨_, hr, hv⟩ := readWindow_fits hread (by omega) _ hwindow
    cases hr
    have hle : step ≤ window := (hv _ rfl).1
    obtain ⟨found', w'', hs⟩ := ih (by omega)
    rw [hrest] at hs
    cases hs
    exact ⟨_, _, rfl⟩

end Scan

namespace MemoryWork

variable {D W : Type} {drv : MemoryDriver D W} {m : Memory D W} {d : D} {regions : List Region}

theorem outcome_onWorld (f : W → α × W) (m : Memory D W) :
    outcome (onWorld f : MemoryWork D W α) m =
      (.ok (f m.world).1, { m with world := (f m.world).2 }) := rfl

theorem outcome_regions_known (hd : m.handle = some d) (hk : m.known = some regions) :
    outcome (MemoryWork.regions drv false) m = (.ok regions, m) := by
  rw [MemoryWork.regions, outcome_bind, outcome_handle hd]
  dsimp only
  rw [outcome_bind, outcome_get]
  dsimp only
  rw [hk]
  rfl

theorem outcome_regions_refresh (hd : m.handle = some d) :
    outcome (MemoryWork.regions drv true) m =
      match drv.regions d m.world with
      | (.ok regions, world) => (.ok regions, { m with known := some regions, world })
      | (.error fault, world) => (.error (.refused fault), { m with world }) := by
  rw [MemoryWork.regions, outcome_bind, outcome_handle hd]
  dsimp only
  rw [outcome_bind, outcome_get]
  dsimp only
  split
  · cases ‹true = false›
  · rw [outcome_bind, perform, outcome_bind, outcome_onWorld]
    dsimp only
    cases drv.regions d m.world with
    | mk result world => cases result <;> rfl

theorem outcome_checked (r : Except Trap α) (m : Memory D W) :
    outcome (checked r : MemoryWork D W α) m = (r.mapError .trapped, m) := by
  cases r <;> rfl

theorem outcome_findPattern (hd : m.handle = some d) (p : BytePattern) (start : Address)
    (length : Nat) :
    outcome (findPattern drv p start length) m =
      ((((Scan.scanFrom (tryRead drv d) p start length m.scanChunk true 0 m.world).1).map
        List.head?).mapError .trapped,
        { m with world :=
          (Scan.scanFrom (tryRead drv d) p start length m.scanChunk true 0 m.world).2 }) := by
  rw [findPattern, outcome_bind, scan, outcome_bind, outcome_handle hd]
  dsimp only
  rw [outcome_bind, outcome_get]
  dsimp only
  rw [outcome_bind, outcome_onWorld]
  dsimp only
  rw [outcome_checked]
  cases (Scan.scanFrom (tryRead drv d) p start length m.scanChunk true 0 m.world).1 <;> rfl

theorem whole_tryRead (drv : MemoryDriver D W) (d : D) : Scan.Whole (tryRead drv d) := by
  intro a size w content w' hr
  rw [tryRead] at hr
  cases hd : drv.read d a size w with
  | mk result world =>
    rw [hd] at hr
    cases result with
    | error fault => cases hr
    | ok bytes =>
      cases hr
      exact drv.length_read (congrArg Prod.fst hd)

end MemoryWork

end Grapnel
