import Grapnel.Proofs.Memory.Freshness

namespace Grapnel

namespace Scan

variable {W : Type} {read : Address → Nat → W → Option (List UInt8) × W} {a b start : Address}
  {p : BytePattern} {overlap left step length chunk offset : Nat} {firstOnly : Bool} {w w' : W}
  {content : List UInt8} {places : List Nat} {found : List Address}

theorem readWindow_length {taken : Nat} {htaken : 0 < taken} (hread : Whole read)
    (positive : 0 < step)
    (h : readWindow read a overlap left step positive w =
      (.ok (some ⟨taken, htaken, content⟩), w')) :
    content.length = min (taken + overlap) left := by
  fun_induction readWindow read a overlap left step positive w with
  | case1 => cases h
  | case2 step positive w size hc content w₁ hw =>
    cases h
    rw [hread _ _ _ _ _ hw]
    rw [addChecked] at hc
    split at hc <;> cases hc
    rfl
  | case3 => cases h
  | case4 step positive w size hc w₁ hw hhalf ih => exact ih h

theorem mapM_add (h : places.mapM a.add = .ok found) :
    found = places.map a.above ∧ ∀ i ∈ places, a.toNat + i < wordLimit := by
  have hall := mapM_ok_iff.1 h
  clear h
  induction hall with
  | nil => exact ⟨rfl, fun i hi => absurd hi List.not_mem_nil⟩
  | cons hb _ ih =>
    obtain ⟨rfl, hlt⟩ := Address.add_eq_ok hb
    exact ⟨congrArg _ ih.1, List.forall_mem_cons.2 ⟨hlt, ih.2⟩⟩

theorem matchesIn_ordered (h : matchesIn p a firstOnly content = .ok found)
    (hlength : content.length = min (step + (p.length - 1)) left) :
    found.Pairwise (· < ·) ∧ ∀ b ∈ found,
      a.toNat ≤ b.toNat ∧ b.toNat < a.toNat + step ∧ b.toNat + p.length ≤ a.toNat + left := by
  have hp := p.length_pos
  obtain ⟨rfl, hfit⟩ := mapM_add h
  have hsub : List.Sublist (if firstOnly = true then (p.findAll content.toArray).take 1
      else p.findAll content.toArray) (p.findAll content.toArray) := by
    split
    · exact List.take_sublist _ _
    · exact List.Sublist.refl _
  constructor
  · rw [List.pairwise_map]
    refine ((BytePattern.findAll_ascending p _).sublist hsub).imp_of_mem ?_
    intro i j _ hj hlt
    exact Address.above_lt_above (hfit j hj) hlt
  · intro b hb
    obtain ⟨i, hi, rfl⟩ := List.mem_map.1 hb
    have hbound := BytePattern.matchesAt_bound (BytePattern.mem_findAll.1 (hsub.mem hi))
    rw [List.size_toArray, hlength] at hbound
    rw [Address.toNat_above (hfit i hi)]
    omega

/-- A scan tells matches in ascending order, and all of them lie within the range. -/
theorem scanFrom_ordered (hread : Whole read) (offset : Nat) (w : W) :
    ∀ found, (scanFrom read p start length chunk firstOnly offset w).1 = .ok found →
      found.Pairwise (· < ·) ∧ ∀ b ∈ found,
        start.toNat + offset ≤ b.toNat ∧ b.toNat + p.length ≤ start.toNat + length := by
  fun_induction scanFrom read p start length chunk firstOnly offset w with
  | case1 => exact fun _ h => by cases h
  | case2 =>
    intro found h
    cases h
    exact ⟨.nil, fun b hb => absurd hb List.not_mem_nil⟩
  | case3 => exact fun _ h => by cases h
  | case4 => exact fun _ h => by cases h
  | case5 offset w positive hfit hlt a hadd window w₁ hwindow ih =>
    intro found h
    obtain ⟨hascending, hinside⟩ := ih found h
    refine ⟨hascending, ?_⟩
    intro b hb
    have hi := hinside b hb
    omega
  | case6 => exact fun _ h => by cases h
  | case7 offset w positive hfit hlt a hadd window step hstep content w₁ hwindow found hm hf =>
    intro found' h
    cases h
    obtain ⟨hascending, hinside⟩ := matchesIn_ordered hm (readWindow_length hread _ hwindow)
    refine ⟨hascending, ?_⟩
    intro b hb
    have hi := hinside b hb
    have ha := Address.add_ok hadd
    omega
  | case8 offset w positive hfit hlt a hadd window step hstep content w₁ hwindow found hm hf rest w₂
      hrest ih =>
    intro all h
    obtain ⟨hascending, hinside⟩ := matchesIn_ordered hm (readWindow_length hread _ hwindow)
    have ha := Address.add_ok hadd
    rw [hrest] at ih
    cases rest with
    | error trap => cases h
    | ok others =>
      cases h
      obtain ⟨hothers, hbeyond⟩ := ih others rfl
      constructor
      · refine List.pairwise_append.2 ⟨hascending, hothers, ?_⟩
        intro b hb b' hb'
        have hi := hinside b hb
        have hi' := hbeyond b' hb'
        exact Address.lt_iff.2 (by omega)
      · intro b hb
        rcases List.mem_append.1 hb with hb | hb
        · have hi := hinside b hb
          omega
        · have hi := hbeyond b hb
          omega

theorem matchesIn_first (h : matchesIn p a false content = .ok found) :
    matchesIn p a true content = .ok (found.take 1) := by
  obtain ⟨rfl, hfit⟩ := mapM_add h
  rw [← List.map_take]
  exact mapM_ok fun i hi => Address.add_eq_above (hfit i (List.mem_of_mem_take hi))

/-- Where a scan for all matches answers, a scan for the first one answers its head. Both do the same
until then. -/
theorem scanFrom_first (offset : Nat) (w : W) :
    ∀ found, (scanFrom read p start length chunk false offset w).1 = .ok found →
      (scanFrom read p start length chunk true offset w).1 = .ok (found.take 1) := by
  fun_induction scanFrom read p start length chunk false offset w with
  | case1 => exact fun _ h => by cases h
  | case2 offset w positive hfit hlt =>
    intro found h
    cases h
    rw [scanFrom, if_neg hfit, dif_pos hlt]
    rfl
  | case3 => exact fun _ h => by cases h
  | case4 => exact fun _ h => by cases h
  | case5 offset w positive hfit hlt a hadd window w₁ hwindow ih =>
    intro found h
    rw [scanFrom_step hfit hlt hadd hwindow]
    exact ih found h
  | case6 => exact fun _ h => by cases h
  | case7 => contradiction
  | case8 offset w positive hfit hlt a hadd window step hstep content w₁ hwindow found hm hf rest w₂
      hrest ih =>
    intro all h
    rw [hrest] at ih
    cases rest with
    | error trap => cases h
    | ok others =>
      cases h
      have hfirst := ih others rfl
      simp only [scanFrom_step hfit hlt hadd hwindow, matchesIn_first hm]
      cases found with
      | cons b found => rfl
      | nil =>
        -- nothing in this window: the rest decides
        change ((scanFrom read p start length chunk true (offset + step) w₁).1.map ([] ++ ·)) = _
        rw [hfirst]
        rfl

end Scan

namespace MemoryWork

variable {D W : Type} {drv : MemoryDriver D W} {m : Memory D W} {found : List Address}

/-- The scan that ends at the first match answers the head of what the whole scan answers, and that is
the lowest match. -/
theorem findPattern_eq_head (p : BytePattern) (start : Address) (length : Nat)
    (h : (outcome (findAllPatterns drv p start length) m).1 = .ok found) :
    (outcome (findPattern drv p start length) m).1 = .ok found.head? ∧
      ∀ a, found.head? = some a → ∀ b ∈ found, a ≤ b := by
  cases hd : m.handle with
  | none =>
    rw [findAllPatterns, NeedsHandle.scan p start length false m hd] at h
    cases h
  | some d =>
    rw [outcome_findAllPatterns hd] at h
    cases hs : (Scan.scanFrom (tryRead drv d) p start length m.scanChunk false 0 m.world).1 with
    | error trap =>
      rw [hs] at h
      cases h
    | ok all =>
      rw [hs] at h
      cases h
      obtain ⟨hascending, _⟩ := Scan.scanFrom_ordered (whole_tryRead drv d) 0 m.world found hs
      constructor
      · rw [outcome_findPattern hd, Scan.scanFrom_first 0 m.world found hs]
        cases found <;> rfl
      · intro a ha b hb
        cases found with
        | nil => cases ha
        | cons c found =>
          cases ha
          rcases List.mem_cons.1 hb with rfl | hb
          · exact Address.le_iff.2 (Nat.le_refl _)
          · have hlt := Address.lt_iff.1 (List.rel_of_pairwise_cons hascending hb)
            exact Address.le_iff.2 (Nat.le_of_lt hlt)

/-- Ones everywhere, behind a driver that refuses the first read. -/
def reluctant : MemoryDriver Unit Nat where
  processId _ := 0
  isWritable _ _ := false
  read _ _ size reads :=
    (if reads = 0 then .error .notAttached else .ok (.replicate size 1), reads + 1)
  write _ _ _ reads := (.error .notAttached, reads)
  readVectored _ _ reads := (.error .notAttached, reads)
  writeVectored _ _ reads := (.error .notAttached, reads)
  regions _ reads := (.error .notAttached, reads)
  length_read h := by
    dsimp only at h
    split at h <;> cases h
    exact List.length_replicate
  lengths_readVectored := nofun

def reluctantMemory : Memory Unit Nat := (Memory.open? (some 4) none 0).attach ()

def oneAndAny : BytePattern := ⟨[some 1, none], by decide⟩

theorem findPattern_eq_head_reluctant :
    (outcome (findAllPatterns reluctant oneAndAny (.ofNat 0x1000) 4) reluctantMemory).1 =
        .ok [.ofNat 0x1000, .ofNat 0x1001, .ofNat 0x1002] ∧
      (outcome (findPattern reluctant oneAndAny (.ofNat 0x1000) 4) reluctantMemory).1 =
        .ok (some (.ofNat 0x1000)) := by
  have hall : (outcome (findAllPatterns reluctant oneAndAny (.ofNat 0x1000) 4) reluctantMemory).1 =
      .ok [.ofNat 0x1000, .ofNat 0x1001, .ofNat 0x1002] := by
    cbv
  exact ⟨hall, (findPattern_eq_head _ _ _ hall).1⟩

end MemoryWork

end Grapnel
