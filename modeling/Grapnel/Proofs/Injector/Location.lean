import Grapnel.Injector.Basic
import Grapnel.Proofs.Memory.Completion

namespace Grapnel

namespace Region

/-- The count of bytes of a region that does not end before its start. -/
def extent (r : Region) : Nat := r.stop.toNat - r.start.toNat

/-- A region that maps no file. -/
def anonymous (access : Access) (start stop : Nat) : Region :=
  ⟨.ofNat start, .ofNat stop, access, false, 0, none⟩

theorem size_of_le {r : Region} (h : r.start ≤ r.stop) : r.size = .ok r.extent := if_pos h

theorem start_extent {r : Region} (h : r.start ≤ r.stop) :
    r.start.toNat + r.extent < wordLimit := by
  rw [extent, Nat.add_sub_cancel' (Address.le_iff.1 h)]
  exact r.stop.toNat_lt

end Region

namespace Injector

/-- A region is scanned if it is code and not too large. -/
def isEligible (maxSize : Nat) (r : Region) : Bool := r.isCode && r.extent ≤ maxSize

def eligible (maxSize : Nat) (regions : List Region) : List Region :=
  regions.filter (isEligible maxSize)

/-- The count of bytes of regions together. -/
def span (rs : List Region) : Nat := (rs.map Region.extent).sum

/-- The regions that are scanned do not fit into a word together with the signature. -/
def Oversized (signature : BytePattern) (maxSize : Nat) (regions : List Region) : Prop :=
  wordLimit ≤ span (eligible maxSize regions) + signature.length

/-- Regions that may stop a search: one of code ends before its start, or they are too large. -/
def Overflows (signature : BytePattern) (maxSize : Nat) (regions : List Region) : Prop :=
  (∃ r ∈ regions, r.isCode = true ∧ ¬ r.start ≤ r.stop) ∨ Oversized signature maxSize regions

variable {D W : Type} {tools : InjectorTools D W} {m : Memory D W} {d : D} {signature : BytePattern}
  {maxSize scanned bytes : Nat} {r : Region} {rs regions : List Region}

/-- A scan of a region for the first match, and the memory after it. -/
def probe (drv : MemoryDriver D W) (signature : BytePattern) (r : Region) (m : Memory D W) :
    Except Stop (Option Address) × Memory D W :=
  outcome (MemoryWork.findPattern drv signature r.start r.extent) m

theorem span_nil : span [] = 0 := rfl

theorem span_cons (r : Region) (rs : List Region) : span (r :: rs) = r.extent + span rs := by
  rw [span, List.map_cons, List.sum_cons, span]

theorem eligible_cons_of_ineligible (h : isEligible maxSize r = false) :
    eligible maxSize (r :: rs) = eligible maxSize rs :=
  List.filter_cons_of_neg (ne_true_of_eq_false h)

theorem eligible_cons_of_eligible (h : isEligible maxSize r = true) :
    eligible maxSize (r :: rs) = r :: eligible maxSize rs :=
  List.filter_cons_of_pos h

theorem probe_ends (tools : InjectorTools D W) (signature : BytePattern) (r : Region)
    (hd : m.handle = some d) :
    ∃ (found : Except Trap (Option Address)) (world : W),
      probe tools.driver signature r m = (found.mapError .trapped, { m with world }) ∧
      (r.start ≤ r.stop → r.extent + signature.length < wordLimit → ∃ a, found = .ok a) := by
  rw [probe, MemoryWork.outcome_findPattern hd]
  refine ⟨_, _, rfl, ?_⟩
  intro hle hsize
  obtain ⟨found, w', hscan⟩ : ∃ found w', Scan.scanFrom (MemoryWork.tryRead tools.driver d) signature
      r.start r.extent m.scanChunk true 0 m.world = (.ok found, w') :=
    Scan.scanFrom_fits (MemoryWork.whole_tryRead tools.driver d) (Region.start_extent hle) hsize
      (Nat.zero_le _)
  rw [hscan]
  exact ⟨_, rfl⟩

theorem outcome_locateFrom_ineligible (h : isEligible maxSize r = false)
    (hle : r.isCode = true → r.start ≤ r.stop) :
    outcome (locateFrom tools signature maxSize scanned bytes (r :: rs)) m =
      outcome (locateFrom tools signature maxSize scanned bytes rs) m := by
  rw [locateFrom]
  cases hc : r.isCode with
  | false => rfl
  | true =>
    rw [isEligible, hc, Bool.true_and, decide_eq_false_iff_not, Nat.not_le] at h
    rw [Bool.not_true, if_neg Bool.false_ne_true, outcome_bind, Region.size_of_le (hle hc)]
    exact congrArg (outcome · m) (if_pos h)

theorem outcome_locateFrom_eligible (h : isEligible maxSize r = true) (hle : r.start ≤ r.stop) :
    outcome (locateFrom tools signature maxSize scanned bytes (r :: rs)) m =
      if bytes + r.extent < wordLimit then
        match probe tools.driver signature r m with
        | (.ok (some a), m') =>
          (.ok (some ⟨a, r.start, r.path, scanned + 1, bytes + r.extent, false⟩), m')
        | (.ok none, m') =>
          outcome (locateFrom tools signature maxSize (scanned + 1) (bytes + r.extent) rs) m'
        | (.error (.refused _), m') =>
          outcome (locateFrom tools signature maxSize (scanned + 1) (bytes + r.extent) rs) m'
        | (.error (.trapped trap), m') => (.error (.trapped trap), m')
      else (.error (.trapped .addOverflow), m) := by
  rw [isEligible, Bool.and_eq_true, decide_eq_true_iff] at h
  rw [locateFrom, h.1, Bool.not_true, if_neg Bool.false_ne_true, outcome_bind,
    Region.size_of_le hle, MemoryWork.outcome_checked]
  dsimp only [Except.mapError]
  rw [if_neg (Nat.not_lt.2 h.2), outcome_bind, MemoryWork.outcome_checked, addChecked]
  by_cases hfit : bytes + r.extent < wordLimit
  · rw [if_pos hfit, if_pos hfit]
    dsimp only [Except.mapError]
    rw [outcome_bind, outcome_tryCatch, probe]
    generalize outcome (MemoryWork.findPattern tools.driver signature r.start r.extent) m = answer
    obtain ⟨found, m'⟩ := answer
    cases found with
    | ok found => cases found <;> rfl
    | error stop => cases stop <;> rfl
  · rw [if_neg hfit, if_neg hfit]
    rfl

theorem outcome_locateFrom_misordered (hc : r.isCode = true) (h : ¬ r.start ≤ r.stop) :
    ∃ trap, outcome (locateFrom tools signature maxSize scanned bytes (r :: rs)) m =
      (.error (.trapped trap), m) := by
  rw [locateFrom, hc, Bool.not_true, if_neg Bool.false_ne_true, outcome_bind, Region.size,
    Address.distance, if_neg h]
  exact ⟨_, rfl⟩

/-- A search ends with an answer or at an overflow, and changes only the world; with an answer where
no region of code ends before its start and what is scanned can be counted. -/
theorem outcome_locateFrom (tools : InjectorTools D W) (signature : BytePattern)
    (maxSize scanned bytes : Nat) (regions : List Region) (hd : m.handle = some d) :
    ∃ (result : Except Trap (Option VmLocation)) (world : W),
      outcome (locateFrom tools signature maxSize scanned bytes regions) m =
        (result.mapError .trapped, { m with world }) ∧
      ((∀ r ∈ regions, r.isCode = true → r.start ≤ r.stop) →
        bytes + span (eligible maxSize regions) + signature.length < wordLimit →
        ∃ vm, result = .ok vm) := by
  induction regions generalizing m scanned bytes with
  | nil => exact ⟨.ok none, m.world, rfl, fun _ _ => ⟨none, rfl⟩⟩
  | cons r rs ih =>
    by_cases hle : r.isCode = true → r.start ≤ r.stop
    · cases he : isEligible maxSize r with
      | false =>
        rw [outcome_locateFrom_ineligible he hle, eligible_cons_of_ineligible he]
        obtain ⟨result, world, hr, hanswers⟩ := ih scanned bytes hd
        exact ⟨result, world, hr, fun hordered =>
          hanswers fun r' hr' => hordered r' (List.mem_cons_of_mem _ hr')⟩
      | true =>
        have hc : r.isCode = true := (Bool.and_eq_true_iff.1 he).1
        rw [outcome_locateFrom_eligible he (hle hc), eligible_cons_of_eligible he, span_cons]
        by_cases hfit : bytes + r.extent < wordLimit
        · obtain ⟨found, world, hp, hanswers⟩ := probe_ends tools signature r hd
          rw [if_pos hfit, hp]
          cases found with
          | error trap =>
            refine ⟨.error trap, world, rfl, ?_⟩
            intro _ hsize
            obtain ⟨_, h⟩ := hanswers (hle hc) (by omega)
            cases h
          | ok found =>
            cases found with
            | some a => exact ⟨.ok (some _), world, rfl, fun _ _ => ⟨_, rfl⟩⟩
            | none =>
              -- what was counted here goes over from the bytes left to the bytes counted
              obtain ⟨result, world', hr, hanswers⟩ :=
                ih (m := { m with world }) (scanned + 1) (bytes + r.extent) hd
              refine ⟨result, world', hr, ?_⟩
              intro hordered hsize
              apply hanswers fun r' hr' => hordered r' (List.mem_cons_of_mem _ hr')
              omega
        · refine ⟨.error .addOverflow, m.world, ?_, ?_⟩
          · rw [if_neg hfit]
            rfl
          · intro _ hsize
            omega
    · obtain ⟨hc, hle⟩ := Classical.not_imp.1 hle
      obtain ⟨trap, hr⟩ := outcome_locateFrom_misordered hc hle
      refine ⟨.error trap, m.world, hr, ?_⟩
      intro hordered _
      exact absurd (hordered r List.mem_cons_self hc) hle

theorem outcome_locateVm (hd : m.handle = some d) (hk : m.known = some regions) :
    outcome (locateVm tools signature maxSize) m =
      outcome (locateFrom tools signature maxSize 0 0 regions) m := by
  rw [locateVm, outcome_bind, MemoryWork.outcome_regions_known hd hk]

/-- A search through regions that are known, and why it may stop. -/
theorem locateVm_ends (tools : InjectorTools D W) (signature : BytePattern) (maxSize : Nat)
    (hd : m.handle = some d) (hk : m.known = some regions) :
    ∃ (result : Except Trap (Option VmLocation)) (world : W),
      outcome (locateVm tools signature maxSize) m = (result.mapError .trapped, { m with world }) ∧
      ∀ trap, result = .error trap → Overflows signature maxSize regions := by
  obtain ⟨result, world, hr, hanswers⟩ :=
    outcome_locateFrom tools signature maxSize 0 0 regions hd
  refine ⟨result, world, (outcome_locateVm hd hk).trans hr, ?_⟩
  rintro trap rfl
  by_contra hclear
  obtain ⟨hordered, hsize⟩ := not_or.1 hclear
  obtain ⟨vm, hvm⟩ := hanswers (fun r hr hc => of_not_not fun hle => hordered ⟨r, hr, hc, hle⟩)
    (by rw [Oversized] at hsize; omega)
  cases hvm

variable {i : Injector D W} {pid : Nat}

/-- A handle that was opened for a process, and the regions that it answered. -/
structure Opened (tools : InjectorTools D W) (pid : Nat) (handle : D) (regions : List Region) :
    Prop where
  opens : ∃ w w', tools.openMemory pid w = (.ok handle, w')
  enumerated : ∃ w w', tools.driver.regions handle w = (.ok regions, w')

/-- How an attempt to attach to a process goes. -/
inductive Opens (tools : InjectorTools D W) (i : Injector D W) (pid : Nat) :
    Except Trap Bool × Injector D W → Prop
  | failed (message message' : String) (memory : Memory D W) :
      (i.memory.handle = none → memory.handle = none) →
      Opens tools i pid (.ok false, { i.transition .attaching message with memory }.fail message')
  | settled (message : String) (memory : Memory D W) (handle : D) (regions : List Region)
      (vm : Option VmLocation) : Opened tools pid handle regions →
      memory.handle = some handle → memory.known = some regions →
      Opens tools i pid (.ok true, { i.transition .attaching message with memory }.settle pid vm)
  | cut (message : String) (memory : Memory D W) (handle : D) (regions : List Region)
      (trap : Trap) : Opened tools pid handle regions →
      memory.handle = some handle → memory.known = some regions →
      Overflows i.signature i.config.maxRegionSize regions →
      Opens tools i pid (.error trap, { i.transition .attaching message with memory })

theorem opens (tools : InjectorTools D W) (i : Injector D W) (pid : Nat) :
    Opens tools i pid (i.attachTo tools pid) := by
  unfold attachTo
  simp only [transition, run_eq_outcome]
  split
  · exact .failed _ _ _ id
  · next handle world ho =>
    rw [MemoryWork.outcome_regions_refresh (d := handle) rfl]
    dsimp only [Memory.attach]
    cases hr : tools.driver.regions handle world with
    | mk result world' =>
      cases result with
      | error fault => exact .failed _ _ _ fun _ => rfl
      | ok regions =>
        dsimp only
        generalize hm : ({
          i.memory with
            handle := some handle, invalidated := false, generation := i.memory.generation + 1,
            known := some regions, world := world' } : Memory D W) = m
        have hhandle : m.handle = some handle := hm ▸ rfl
        have hknown : m.known = some regions := hm ▸ rfl
        have hopened : Opened tools pid handle regions := ⟨⟨_, _, ho⟩, ⟨_, _, hr⟩⟩
        obtain ⟨result, world'', hl, hcut⟩ :=
          locateVm_ends tools i.signature i.config.maxRegionSize hhandle hknown
        rw [hl]
        cases result with
        | ok vm =>
          exact .settled _ { m with world := world'' } handle regions vm hopened hhandle hknown
        | error trap =>
          exact .cut _ { m with world := world'' } handle regions trap hopened hhandle hknown
            (hcut trap rfl)

/-- What is left of an attempt to attach that was cut short: a handle of the target, in a state that
does not tell of it, and regions of this very handle that stopped the search. -/
structure Abandoned (tools : InjectorTools D W) (i : Injector D W) : Prop where
  attaching : i.state = .attaching
  held : ∃ p handle regions, i.target = some p ∧ i.memory.handle = some handle ∧
    i.memory.known = some regions ∧ Opened tools p.pid handle regions ∧
    Overflows i.signature i.config.maxRegionSize regions

/-- While such an attempt is left behind no operation does anything. -/
theorem perform_of_attaching (tools : InjectorTools D W) (h : i.state = .attaching)
    (op : InjectorOperation) : i.perform tools op = (.ok false, i) := by
  have hscan : i.scan tools = (false, i) := by rw [scan, h]; rfl
  have hattach : i.attach tools = (.ok false, i) := by
    rw [attach, hscan, h]
    cases i.target <;> rfl
  have hround : i.round tools = (.ok false, i) := by
    rw [round, h, hattach, hscan]
    cases i.config.autoAttach <;> rfl
  cases op with
  | scan => exact congrArg perform.certain hscan
  | attach => exact hattach
  | detach => rw [perform, detach, h]; rfl
  | check => rw [perform, check, h]; rfl
  | beginExecution => rw [perform, beginExecution, h]; rfl
  | endExecution => rw [perform, endExecution, h]; rfl
  | round => exact hround

theorem run_of_attaching (tools : InjectorTools D W) (h : i.state = .attaching)
    (op : InjectorOperation) :
    i.run tools op = (.ok false, i.untold, { i with untold := [] }) := by
  rw [run, perform_of_attaching tools h op]

end Injector

end Grapnel
