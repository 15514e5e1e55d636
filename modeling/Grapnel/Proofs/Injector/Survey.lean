import Grapnel.Proofs.Injector.Location
import Grapnel.Proofs.Memory.EarlyExit
import Grapnel.Proofs.Memory.Footprint

namespace Grapnel

namespace Injector

variable {D W : Type} {tools : InjectorTools D W} {drv : MemoryDriver D W} {signature : BytePattern}
  {m m' : Memory D W} {d : D} {r r' : Region} {rs before : List Region} {a a' : Address}
  {maxSize scanned bytes : Nat} {vm : VmLocation}

/-- A scan that finds nothing, or that is refused. -/
inductive Misses : Except Stop (Option Address) → Prop
  | nothing : Misses (.ok none)
  | refused (fault : MemoryFault) : Misses (.error (.refused fault))

/-- Regions that are scanned one after the other in vain. -/
inductive Fruitless (drv : MemoryDriver D W) (signature : BytePattern) :
    Memory D W → List Region → Memory D W → Prop
  | nil {m : Memory D W} : Fruitless drv signature m [] m
  | cons {m m' : Memory D W} {r : Region} {rs : List Region} :
      Misses (probe drv signature r m).1 → Fruitless drv signature (probe drv signature r m).2 rs m' →
      Fruitless drv signature m (r :: rs) m'

/-- The first region in which a scan finds the signature: those before it were scanned in vain. -/
structure FirstHit (drv : MemoryDriver D W) (signature : BytePattern) (m : Memory D W)
    (regions before : List Region) (r : Region) (a : Address) : Prop where
  place : ∃ after, regions = before ++ r :: after
  found : ∃ m', Fruitless drv signature m before m' ∧ (probe drv signature r m').1 = .ok (some a)

/-- What is told of a virtual machine that was found in a region. -/
def located (scanned bytes : Nat) (before : List Region) (r : Region) (a : Address) : VmLocation where
  address := a
  regionStart := r.start
  regionPath := r.path
  regionsScanned := scanned + (before.length + 1)
  bytesScanned := bytes + span (before ++ [r])
  validated := false

theorem span_lt_of_apart {place : Nat} (hplace : place < wordLimit)
    (hordered : ∀ r ∈ rs, r.start ≤ r.stop) (hbehind : ∀ r ∈ rs, place ≤ r.start.toNat)
    (hapart : rs.Pairwise fun r r' => r.stop ≤ r'.start) : place + span rs < wordLimit := by
  induction rs generalizing place with
  | nil => exact hplace
  | cons r rs ih =>
    obtain ⟨hfirst, hrest⟩ := List.pairwise_cons.1 hapart
    have hi := ih r.stop.toNat_lt (fun r' hr' => hordered r' (List.mem_cons_of_mem _ hr'))
      (fun r' hr' => Address.le_iff.1 (hfirst r' hr')) hrest
    have hplace := hbehind r List.mem_cons_self
    have hle := Address.le_iff.1 (hordered r List.mem_cons_self)
    rw [span_cons, Region.extent]
    omega

theorem span_eligible_lt {regions : List Region} (hordered : ∀ r ∈ regions, r.start ≤ r.stop)
    (hapart : regions.Pairwise fun r r' => r.stop ≤ r'.start) (maxSize : Nat) :
    span (eligible maxSize regions) < wordLimit := by
  rw [← Nat.zero_add (span _)]
  exact span_lt_of_apart (by decide) (fun r hr => hordered r (List.mem_of_mem_filter hr))
    (fun _ _ => Nat.zero_le _) (hapart.filter _)

theorem Misses.not_found (h : Misses answer) : answer ≠ .ok (some a) := by
  rintro rfl
  cases h

theorem fruitless_cons : (∃ m', Fruitless drv signature m (r :: rs) m') ↔
    Misses (probe drv signature r m).1 ∧
      ∃ m', Fruitless drv signature (probe drv signature r m).2 rs m' := by
  constructor
  · rintro ⟨m', _ | ⟨hmiss, hrest⟩⟩
    exact ⟨hmiss, m', hrest⟩
  · rintro ⟨hmiss, m', hrest⟩
    exact ⟨m', .cons hmiss hrest⟩

theorem firstHit_nil : ¬ FirstHit drv signature m [] before r a := by
  rintro ⟨⟨after, h⟩, _⟩
  exact List.append_ne_nil_of_right_ne_nil _ (List.cons_ne_nil _ _) h.symm

/-- The first region has the signature, or the scan goes on behind it. -/
theorem firstHit_cons : FirstHit drv signature m (r :: rs) before r' a ↔
    before = [] ∧ r' = r ∧ (probe drv signature r m).1 = .ok (some a) ∨
      ∃ others, before = r :: others ∧ Misses (probe drv signature r m).1 ∧
        FirstHit drv signature (probe drv signature r m).2 rs others r' a := by
  constructor
  · rintro ⟨⟨after, hplace⟩, m', hfruitless, hfound⟩
    cases hfruitless with
    | nil =>
      cases hplace
      exact .inl ⟨rfl, rfl, hfound⟩
    | cons hmiss hrest =>
      cases hplace
      exact .inr ⟨_, rfl, hmiss, ⟨after, rfl⟩, m', hrest, hfound⟩
  · rintro (⟨rfl, rfl, hfound⟩ | ⟨others, rfl, hmiss, ⟨after, rfl⟩, m', hrest, hfound⟩)
    · exact ⟨⟨rs, rfl⟩, m, .nil, hfound⟩
    · exact ⟨⟨after, rfl⟩, m', .cons hmiss hrest, hfound⟩

theorem firstHit_of_hit (hp : probe drv signature r m = (.ok (some a), m')) :
    FirstHit drv signature m (r :: rs) before r' a' ↔ before = [] ∧ r' = r ∧ a' = a := by
  rw [firstHit_cons, hp]
  constructor
  · rintro (⟨hbefore, hr, hfound⟩ | ⟨_, _, hmiss, _⟩)
    · cases hfound
      exact ⟨hbefore, hr, rfl⟩
    · cases hmiss
  · rintro ⟨hbefore, hr, rfl⟩
    exact .inl ⟨hbefore, hr, rfl⟩

theorem firstHit_of_miss (hp : probe drv signature r m = (answer, m')) (hmiss : Misses answer) :
    FirstHit drv signature m (r :: rs) before r' a' ↔
      ∃ others, before = r :: others ∧ FirstHit drv signature m' rs others r' a' := by
  rw [firstHit_cons, hp]
  constructor
  · rintro (⟨_, _, hfound⟩ | ⟨others, hbefore, _, hlater⟩)
    · exact absurd hfound hmiss.not_found
    · exact ⟨others, hbefore, hlater⟩
  · rintro ⟨others, hbefore, hlater⟩
    exact .inr ⟨others, hbefore, hmiss, hlater⟩

theorem not_firstHit_of_trap {trap : Trap}
    (hp : probe drv signature r m = (.error (.trapped trap), m')) :
    ¬ FirstHit drv signature m (r :: rs) before r' a' := by
  rw [firstHit_cons, hp]
  rintro (⟨_, _, hfound⟩ | ⟨_, _, hmiss, _⟩)
  · cases hfound
  · cases hmiss

/-- How a search through eligible regions goes on, from what was counted so far. -/
inductive Survey (drv : MemoryDriver D W) (signature : BytePattern) :
    Nat → Nat → Memory D W → List Region → Except Stop (Option VmLocation) × Memory D W → Prop
  | ended {scanned bytes : Nat} {m : Memory D W} :
      Survey drv signature scanned bytes m [] (.ok none, m)
  | uncountable {scanned bytes : Nat} {m : Memory D W} {r : Region} {rs : List Region} :
      wordLimit ≤ bytes + r.extent →
      Survey drv signature scanned bytes m (r :: rs) (.error (.trapped .addOverflow), m)
  | hit {scanned bytes : Nat} {m m' : Memory D W} {r : Region} {rs : List Region} {a : Address} :
      bytes + r.extent < wordLimit → probe drv signature r m = (.ok (some a), m') →
      Survey drv signature scanned bytes m (r :: rs) (.ok (some (located scanned bytes [] r a)), m')
  | miss {scanned bytes : Nat} {m m' : Memory D W} {r : Region} {rs : List Region}
      {answer : Except Stop (Option Address)}
      {result : Except Stop (Option VmLocation) × Memory D W} :
      bytes + r.extent < wordLimit → probe drv signature r m = (answer, m') → Misses answer →
      Survey drv signature (scanned + 1) (bytes + r.extent) m' rs result →
      Survey drv signature scanned bytes m (r :: rs) result
  | cut {scanned bytes : Nat} {m m' : Memory D W} {r : Region} {rs : List Region} {trap : Trap} :
      bytes + r.extent < wordLimit → probe drv signature r m = (.error (.trapped trap), m') →
      Survey drv signature scanned bytes m (r :: rs) (.error (.trapped trap), m')

theorem survey_locateFrom (hordered : ∀ r ∈ regions, r.start ≤ r.stop) :
    Survey tools.driver signature scanned bytes m (eligible maxSize regions)
      (outcome (locateFrom tools signature maxSize scanned bytes regions) m) := by
  induction regions generalizing m scanned bytes with
  | nil => exact .ended
  | cons r rs ih =>
    have hle := hordered r List.mem_cons_self
    have hrest {scanned bytes : Nat} {m : Memory D W} := @ih m scanned bytes
      fun r' hr' => hordered r' (List.mem_cons_of_mem _ hr')
    cases he : isEligible maxSize r with
    | false =>
      rw [outcome_locateFrom_ineligible he fun _ => hle, eligible_cons_of_ineligible he]
      exact hrest
    | true =>
      rw [outcome_locateFrom_eligible he hle, eligible_cons_of_eligible he]
      split
      · next hfit =>
        split
        · next a m' hp => exact .hit hfit hp
        · next m' hp => exact .miss hfit hp .nothing hrest
        · next fault m' hp => exact .miss hfit hp (.refused fault) hrest
        · next trap m' hp => exact .cut hfit hp
      · next hfit => exact .uncountable (Nat.le_of_not_lt hfit)

theorem located_cons (scanned bytes : Nat) (before : List Region) (r r' : Region) (a : Address) :
    located scanned bytes (r :: before) r' a =
      located (scanned + 1) (bytes + r.extent) before r' a := by
  rw [located, located, List.cons_append, span_cons, List.length_cons]
  congr 1 <;> omega

theorem located_zero (before : List Region) (r : Region) (a : Address) :
    located 0 0 before r a =
      ⟨a, r.start, r.path, (before ++ [r]).length, span (before ++ [r]), false⟩ := by
  rw [located, Nat.zero_add, Nat.zero_add, List.length_append, List.length_singleton]

theorem Survey.some_iff {result : Except Stop (Option VmLocation) × Memory D W}
    (h : Survey drv signature scanned bytes m rs result) :
    result.1 = .ok (some vm) ↔
      ∃ before r a, FirstHit drv signature m rs before r a ∧
        bytes + span (before ++ [r]) < wordLimit ∧ vm = located scanned bytes before r a := by
  induction h with
  | ended =>
    constructor
    · intro h
      cases h
    · rintro ⟨before, r, a, hhit, _⟩
      exact absurd hhit firstHit_nil
  | uncountable hlarge =>
    constructor
    · intro h
      cases h
    · rintro ⟨before, r, a, hhit, hfit, _⟩
      rcases firstHit_cons.1 hhit with ⟨rfl, rfl, _⟩ | ⟨others, rfl, _⟩
      · rw [List.nil_append, span_cons] at hfit
        omega
      · rw [List.cons_append, span_cons] at hfit
        omega
  | hit hfit hp =>
    simp only [firstHit_of_hit hp]
    constructor
    · intro h
      cases h
      refine ⟨[], _, _, ⟨rfl, rfl, rfl⟩, ?_, rfl⟩
      rwa [List.nil_append, span_cons, span_nil, Nat.add_zero]
    · rintro ⟨_, _, _, ⟨rfl, rfl, rfl⟩, _, rfl⟩
      rfl
  | miss hfit hp hmiss _ ih =>
    simp only [ih, firstHit_of_miss hp hmiss]
    constructor
    · rintro ⟨before, r', a', hhit, hsum, rfl⟩
      refine ⟨_ :: before, r', a', ⟨before, rfl, hhit⟩, ?_, (located_cons ..).symm⟩
      rw [List.cons_append, span_cons]
      omega
    · rintro ⟨_, r', a', ⟨others, rfl, hlater⟩, hsum, rfl⟩
      refine ⟨others, r', a', hlater, ?_, located_cons ..⟩
      rw [List.cons_append, span_cons] at hsum
      omega
  | cut hfit hp =>
    constructor
    · intro h
      cases h
    · rintro ⟨before, r', a', hhit, _⟩
      exact absurd hhit (not_firstHit_of_trap hp)

theorem Survey.none_iff {result : Except Stop (Option VmLocation) × Memory D W}
    (h : Survey drv signature scanned bytes m rs result) (hbytes : bytes < wordLimit) :
    result.1 = .ok none ↔
      (∃ m', Fruitless drv signature m rs m') ∧ bytes + span rs < wordLimit := by
  induction h with
  | ended => exact ⟨fun _ => ⟨⟨_, .nil⟩, hbytes⟩, fun _ => rfl⟩
  | uncountable hlarge =>
    constructor
    · intro h
      cases h
    · rintro ⟨_, hfit⟩
      rw [span_cons] at hfit
      omega
  | hit hfit hp =>
    constructor
    · intro h
      cases h
    · rintro ⟨hfruitless, _⟩
      have hmiss := (fruitless_cons.1 hfruitless).1
      rw [hp] at hmiss
      cases hmiss
  | miss hfit hp hmiss _ ih =>
    rw [ih hfit, fruitless_cons, hp, span_cons, Nat.add_assoc]
    exact and_congr_left fun _ => (and_iff_right hmiss).symm
  | cut hfit hp =>
    constructor
    · intro h
      cases h
    · rintro ⟨hfruitless, _⟩
      have hmiss := (fruitless_cons.1 hfruitless).1
      rw [hp] at hmiss
      cases hmiss

/-- Reads of places within some regions. -/
def Inside (rs : List Region) (reads : List (Address × Nat)) : Prop :=
  ∀ read ∈ reads, ∃ r ∈ rs,
    r.start.toNat ≤ read.1.toNat ∧ read.1.toNat + read.2 ≤ r.stop.toNat

theorem probe_reads (drv : MemoryDriver D W) (hd : m.handle = some d) (signature : BytePattern)
    (r : Region) :
    ∃ reads, (probe drv signature r m).2 =
        { m with world := Scan.afterReads (drv.read d) m.world reads } ∧
      Scan.Within r.start r.extent reads := by
  obtain ⟨reads, hreads, hwithin⟩ := Scan.scanFrom_reads (MemoryWork.tryRead drv d) signature r.start
    r.extent m.scanChunk true 0 m.world
  refine ⟨reads, ?_, hwithin⟩
  rw [probe, MemoryWork.outcome_findPattern hd, hreads]
  rfl

theorem probe_reads_inside (drv : MemoryDriver D W) (hd : m.handle = some d)
    (signature : BytePattern) (rs : List Region) (hle : r.start ≤ r.stop) :
    ∃ reads, (probe drv signature r m).2 =
        { m with world := Scan.afterReads (drv.read d) m.world reads } ∧ Inside (r :: rs) reads := by
  obtain ⟨reads, hreads, hwithin⟩ := probe_reads drv hd signature r
  refine ⟨reads, hreads, ?_⟩
  intro read hread
  obtain ⟨hstart, hstop⟩ := hwithin read hread
  rw [Region.extent, Nat.add_sub_cancel' (Address.le_iff.1 hle)] at hstop
  exact ⟨r, List.mem_cons_self, hstart, hstop⟩

theorem Survey.reads {result : Except Stop (Option VmLocation) × Memory D W}
    (h : Survey drv signature scanned bytes m rs result) (hd : m.handle = some d)
    (hordered : ∀ r ∈ rs, r.start ≤ r.stop) :
    ∃ reads, result.2 = { m with world := Scan.afterReads (drv.read d) m.world reads } ∧
      Inside rs reads := by
  induction h with
  | ended => exact ⟨[], rfl, fun read hread => absurd hread List.not_mem_nil⟩
  | uncountable => exact ⟨[], rfl, fun read hread => absurd hread List.not_mem_nil⟩
  | @hit _ _ m _ r rs _ _ hp =>
    have hreads := probe_reads_inside drv hd signature rs (hordered r List.mem_cons_self)
    rwa [hp] at hreads
  | @miss _ _ m _ r rs _ _ _ hp _ _ ih =>
    obtain ⟨reads, hreads, hinside⟩ :=
      probe_reads_inside drv hd signature rs (hordered r List.mem_cons_self)
    rw [hp] at hreads
    subst hreads
    obtain ⟨others, hothers, hrest⟩ := ih hd fun r hr => hordered r (List.mem_cons_of_mem _ hr)
    refine ⟨reads ++ others, ?_, List.forall_mem_append.2 ⟨hinside, ?_⟩⟩
    · rw [hothers, Scan.afterReads_append]
    · intro read hread
      obtain ⟨r', hr', hplace⟩ := hrest read hread
      exact ⟨r', List.mem_cons_of_mem _ hr', hplace⟩
  | @cut _ _ m _ r rs _ _ hp =>
    have hreads := probe_reads_inside drv hd signature rs (hordered r List.mem_cons_self)
    rwa [hp] at hreads

theorem probe_inside (hle : r.start ≤ r.stop)
    (h : (probe drv signature r m).1 = .ok (some a)) :
    r.start ≤ a ∧ a.toNat + signature.length ≤ r.stop.toNat := by
  cases hd : m.handle with
  | none =>
    have hneeds : MemoryWork.NeedsHandle
        (MemoryWork.scan drv signature r.start r.extent true) := .scan _ _ _ _
    rw [probe, MemoryWork.findPattern, hneeds.bind _ m hd] at h
    cases h
  | some d =>
    rw [probe, MemoryWork.outcome_findPattern hd] at h
    cases hs : (Scan.scanFrom (MemoryWork.tryRead drv d) signature r.start r.extent m.scanChunk true
      0 m.world).1 with
    | error trap =>
      rw [hs] at h
      cases h
    | ok found =>
      rw [hs] at h
      have hhead : found.head? = some a := by injection h
      obtain ⟨_, hplaces⟩ := Scan.scanFrom_ordered (MemoryWork.whole_tryRead drv d) 0 m.world found hs
      obtain ⟨hstart, hstop⟩ := hplaces a (List.mem_of_head? hhead)
      have hsum : r.start.toNat + r.extent = r.stop.toNat :=
        Nat.add_sub_cancel' (Address.le_iff.1 hle)
      exact ⟨Address.le_iff.2 hstart, hsum ▸ hstop⟩

theorem FirstHit.inside (h : FirstHit drv signature m rs before r a)
    (hordered : ∀ r ∈ rs, r.start ≤ r.stop) :
    r.start ≤ a ∧ a.toNat + signature.length ≤ r.stop.toNat := by
  obtain ⟨⟨after, rfl⟩, m', _, hfound⟩ := h
  exact probe_inside (hordered r (List.mem_append_right _ List.mem_cons_self)) hfound

theorem probe_fixed {memory : Nat → UInt8} {refused : Address → Nat → Bool} {w : W}
    (hd : m.handle = some d)
    (hr : Scan.ReadsFrom (MemoryWork.tryRead drv d) memory refused m.world)
    (hr' : Scan.ReadsFrom (MemoryWork.tryRead drv d) memory refused w) :
    (probe drv signature r { m with world := w }).1 = (probe drv signature r m).1 := by
  have hd' : ({ m with world := w } : Memory D W).handle = some d := hd
  rw [probe, probe, MemoryWork.outcome_findPattern hd, MemoryWork.outcome_findPattern hd']
  dsimp only
  rw [Scan.scanFrom_fixed hr, Scan.scanFrom_fixed hr']

theorem Fruitless.reads (h : Fruitless drv signature m rs m') (hd : m.handle = some d) :
    ∃ reads, m' = { m with world := Scan.afterReads (drv.read d) m.world reads } := by
  induction h with
  | nil => exact ⟨[], rfl⟩
  | @cons m m' r rs hmiss hrest ih =>
    obtain ⟨reads, hreads, _⟩ := probe_reads drv hd signature r
    rw [hreads] at ih
    obtain ⟨others, rfl⟩ := ih hd
    exact ⟨reads ++ others, by rw [Scan.afterReads_append]⟩

/-- Where the reads give the bytes of one memory, a scan finds at any time what it finds at first. -/
theorem Fruitless.alike {memory : Nat → UInt8} {refused : Address → Nat → Bool}
    (h : Fruitless drv signature m rs m') (hd : m.handle = some d)
    (hr : Scan.ReadsFrom (MemoryWork.tryRead drv d) memory refused m.world) (r : Region) :
    (probe drv signature r m').1 = (probe drv signature r m).1 := by
  obtain ⟨reads, rfl⟩ := h.reads hd
  exact probe_fixed hd hr (hr.afterReads reads)

theorem handle_of_regions {m₀ : Memory D W} {refresh : Bool} {regions : List Region}
    (h : outcome (MemoryWork.regions drv refresh) m₀ = (.ok regions, m)) :
    ∃ d, m.handle = some d := by
  cases hd : m₀.handle with
  | none =>
    rw [MemoryWork.NeedsHandle.regions m₀ hd] at h
    cases h
  | some d =>
    by_cases hasked : m₀.known = none ∨ refresh = true
    · rw [MemoryWork.outcome_regions_asked hd hasked] at h
      split at h <;> cases h
      exact ⟨d, hd⟩
    · obtain ⟨hknown, hrefresh⟩ := not_or.1 hasked
      obtain ⟨known, hk⟩ := Option.ne_none_iff_exists'.1 hknown
      rw [Bool.eq_false_of_not_eq_true hrefresh, MemoryWork.outcome_regions_known hd hk] at h
      cases h
      exact ⟨d, hd⟩

/-- The search tells the first eligible region in which a scan finds the signature, with the place
and with the count and the sizes of the eligible regions up to it. It tells none if and only if the
scan finds nothing in any of them. Both only as long as these sizes can be counted in a word, which is so
where regions lie one behind the other; it may stop at an overflow where they do not fit into a word
together with the signature. It reads nothing but places inside them. Where the reads give the bytes of
one memory, it does not matter when a region is scanned. -/
theorem locateVm_exact {m₀ : Memory D W} {regions : List Region}
    (hordered : ∀ r ∈ regions, r.start ≤ r.stop)
    (hregions : outcome (MemoryWork.regions tools.driver false) m₀ = (.ok regions, m))
    (signature : BytePattern) (maxSize : Nat) :
    (∀ vm, (outcome (locateVm tools signature maxSize) m₀).1 = .ok (some vm) ↔
      ∃ before r a, FirstHit tools.driver signature m (eligible maxSize regions) before r a ∧
        r.start ≤ a ∧ a.toNat + signature.length ≤ r.stop.toNat ∧
        span (before ++ [r]) < wordLimit ∧
        vm = ⟨a, r.start, r.path, (before ++ [r]).length, span (before ++ [r]), false⟩) ∧
    ((outcome (locateVm tools signature maxSize) m₀).1 = .ok none ↔
      (∃ m', Fruitless tools.driver signature m (eligible maxSize regions) m') ∧
        span (eligible maxSize regions) < wordLimit) ∧
    (regions.Pairwise (fun r r' => r.stop ≤ r'.start) →
      span (eligible maxSize regions) < wordLimit) ∧
    (∀ stop, (outcome (locateVm tools signature maxSize) m₀).1 = .error stop →
      (∃ trap, stop = .trapped trap) ∧ Oversized signature maxSize regions) ∧
    ∃ d, m.handle = some d ∧
      (∃ reads, (outcome (locateVm tools signature maxSize) m₀).2 =
          { m with world := Scan.afterReads (tools.driver.read d) m.world reads } ∧
        Inside (eligible maxSize regions) reads) ∧
      ∀ memory refused, Scan.ReadsFrom (MemoryWork.tryRead tools.driver d) memory refused m.world →
        ∀ before m', Fruitless tools.driver signature m before m' →
          ∀ r, (probe tools.driver signature r m').1 = (probe tools.driver signature r m).1 := by
  obtain ⟨d, hd⟩ := handle_of_regions hregions
  have hsurvey : Survey tools.driver signature 0 0 m (eligible maxSize regions)
      (outcome (locateVm tools signature maxSize) m₀) := by
    rw [locateVm, outcome_bind, hregions]
    exact survey_locateFrom hordered
  have heligible : ∀ r ∈ eligible maxSize regions, r.start ≤ r.stop :=
    fun r hr => hordered r (List.mem_of_mem_filter hr)
  refine ⟨?_, ?_, fun hapart => span_eligible_lt hordered hapart maxSize, ?_, d, hd,
    hsurvey.reads hd heligible, ?_⟩
  · intro vm
    rw [hsurvey.some_iff]
    constructor
    · rintro ⟨before, r, a, hhit, hfit, rfl⟩
      rw [Nat.zero_add] at hfit
      obtain ⟨hstart, hstop⟩ := hhit.inside heligible
      exact ⟨before, r, a, hhit, hstart, hstop, hfit, located_zero before r a⟩
    · rintro ⟨before, r, a, hhit, _, _, hfit, rfl⟩
      rw [← Nat.zero_add (span _)] at hfit
      exact ⟨before, r, a, hhit, hfit, (located_zero before r a).symm⟩
  · rw [hsurvey.none_iff (by decide), Nat.zero_add]
  · intro stop hstop
    obtain ⟨result, _, hr, hanswers⟩ := outcome_locateFrom tools signature maxSize 0 0 regions hd
    rw [locateVm, outcome_bind, hregions] at hstop
    dsimp only at hstop
    rw [hr] at hstop
    cases result with
    | ok vm => cases hstop
    | error trap =>
      refine ⟨⟨trap, (Except.error.inj hstop).symm⟩, Nat.le_of_not_lt ?_⟩
      intro hsize
      obtain ⟨vm, hvm⟩ := hanswers (fun r hmem _ => hordered r hmem) (by omega)
      cases hvm
  · intro memory refused hr before m' hfruitless
    exact hfruitless.alike hd hr

/-- Some regions behind a driver that refuses to read the lowest places, and finds the same bytes
wherever else it is asked to. -/
def shyTools (regions : List Region) : InjectorTools Unit Unit where
  source := {
    processes := fun w => (.ok [], w)
    regions := fun _ w => (.ok [], w) }
  openMemory _ w := (.ok (), w)
  driver := {
    processId := fun _ => 0
    isWritable := fun _ _ => false
    read := fun _ a size w =>
      (if a < .ofNat 0x2000 then .error .notAttached
        else .ok ((0x1B :: 0x4C :: 0x75 :: List.replicate size 0).take size), w)
    write := fun _ _ _ w => (.error .notAttached, w)
    readVectored := fun _ _ w => (.error .notAttached, w)
    writeVectored := fun _ _ w => (.error .notAttached, w)
    regions := fun _ w => (.ok regions, w)
    length_read := by
      intro d a size w bytes h
      dsimp only at h
      split at h <;> cases h
      simp only [List.length_take, List.length_cons, List.length_replicate]
      omega
    lengths_readVectored := nofun }

/-- The second region is not code and the third one is large. -/
def fourRegions : List Region :=
  [.anonymous .readExecute 0x1000 0x1008, .anonymous .read 0x2000 0x2008,
    .anonymous .all 0x3000 0x3011, .anonymous .readExecute 0x4000 0x4010]

/-- Regions that overlap: their sizes add up to more than the address space has. -/
def twoRegions : List Region :=
  [.anonymous .readExecute 0 0x10, .anonymous .readExecute 8 (2 ^ 64 - 1)]

def threeBytes : BytePattern := ⟨[some 0x1B, none, some 0x75], by decide⟩

def fourMemory : Memory Unit Unit := (Memory.create ()).attach ()

theorem locateVm_exact_fourRegions :
    (outcome (locateVm (shyTools fourRegions) threeBytes 0x10) fourMemory).1 =
        .ok (some ⟨.ofNat 0x4000, .ofNat 0x4000, none, 2, 0x18, false⟩) ∧
      (outcome (locateVm (shyTools twoRegions) threeBytes (wordLimit - 1)) fourMemory).1 =
        .error (.trapped .addOverflow) ∧ Oversized threeBytes (wordLimit - 1) twoRegions := by
  have hfour : outcome (MemoryWork.regions (shyTools fourRegions).driver false) fourMemory =
      (.ok fourRegions, { fourMemory with known := some fourRegions }) := rfl
  have htwo : outcome (MemoryWork.regions (shyTools twoRegions).driver false) fourMemory =
      (.ok twoRegions, { fourMemory with known := some twoRegions }) := rfl
  have hmiss : (probe (shyTools fourRegions).driver threeBytes (.anonymous .readExecute 0x1000 0x1008)
      { fourMemory with known := some fourRegions }).1 = .ok none := by
    cbv
  have hhit : FirstHit (shyTools fourRegions).driver threeBytes
      { fourMemory with known := some fourRegions } (eligible 0x10 fourRegions)
      [.anonymous .readExecute 0x1000 0x1008] (.anonymous .readExecute 0x4000 0x4010)
      (.ofNat 0x4000) := by
    refine ⟨⟨[], by decide⟩, _, .cons ?_ .nil, by cbv⟩
    rw [hmiss]
    exact .nothing
  obtain ⟨hfound, _⟩ := locateVm_exact (by decide) hfour threeBytes 0x10
  obtain ⟨_, _, _, hstops, _⟩ := locateVm_exact (by decide) htwo threeBytes (wordLimit - 1)
  have hstop : (outcome (locateVm (shyTools twoRegions) threeBytes (wordLimit - 1)) fourMemory).1 =
      .error (.trapped .addOverflow) := by
    cbv
  exact ⟨(hfound _).2 ⟨_, _, _, hhit, by decide, by decide, by decide, rfl⟩, hstop,
    (hstops _ hstop).2⟩

end Injector

end Grapnel
