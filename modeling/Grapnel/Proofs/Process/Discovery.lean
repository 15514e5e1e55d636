import Mathlib
import Grapnel.Process.Locator
import Grapnel.Proofs.Process.Descent
import Grapnel.Proofs.Text.Search

namespace Grapnel

theorem LocatorConfig.hasModule_iff {c : LocatorConfig} {regions : List Region} :
    c.hasModule regions = true ↔ ∃ r ∈ regions, ∃ path, r.path = some path ∧
      ∃ fragment ∈ c.fragments, fragment <:+: Text.lowered path := by
  simp only [hasModule, List.any_eq_true, Option.any_eq_true, Text.hasInfix_iff]

namespace ProcessSource

variable {W : Type}

/-- The worlds that questions about regions lead to. -/
inductive Asked (s : ProcessSource W) (w : W) : W → Prop
  | nothing : Asked s w w
  | further {w' : W} (pid : Nat) : Asked s w w' → Asked s w (s.regions pid w').2

/-- Whatever was asked before, the regions of a process are answered, or refused, in one way. -/
def Maps (s : ProcessSource W) (w : W) (maps : Nat → Except SourceFault (List Region)) : Prop :=
  ∀ w', s.Asked w w' → ∀ pid, (s.regions pid w').1 = maps pid

theorem Maps.next {s : ProcessSource W} {w : W} {maps : Nat → Except SourceFault (List Region)}
    (h : s.Maps w maps) (pid : Nat) : s.Maps (s.regions pid w).2 maps := by
  intro w' hasked
  apply h w'
  induction hasked with
  | nothing => exact .further pid .nothing
  | further pid' _ ih => exact .further pid' ih

end ProcessSource

theorem ListedProcesses.maps_source (l : ListedProcesses) : source.Maps l fun pid =>
    (l.regions.lookup pid).elim (.error (.io .permissionDenied)) .ok := by
  intro l' hasked pid
  have hregions : l'.regions = l.regions := by
    induction hasked with
    | nothing => rfl
    | further _ _ ih => exact ih
  simp only [source, hregions]
  cases l.regions.lookup pid with
  | none => rfl
  | some regions => rfl

/-- The ways to look for the target are tried in this order. -/
def DiscoveryMethod.rank : DiscoveryMethod → Nat
  | .directName => 0
  | .compatCommandLine => 1
  | .compatModule => 2
  | .sandbox => 3

namespace Locator

variable {W : Type} {c : LocatorConfig} {t : ProcessTable} {s : ProcessSource W} {w : W}
  {maps : Nat → Except SourceFault (List Region)} {method : DiscoveryMethod} {p : ProcessInfo}
  {found ps : List ProcessInfo}

/-- A compatibility host, or a process below one. -/
def Hosted (c : LocatorConfig) (t : ProcessTable) (p : ProcessInfo) : Prop :=
  p ∈ t.processes ∧ ∃ host ∈ t.processes, c.isCompatHost host = true ∧
    (p = host ∨ t.Below host.pid p.pid)

/-- A process whose regions can be read and have a path with the module in it. -/
def Mapped (c : LocatorConfig) (maps : Nat → Except SourceFault (List Region)) (p : ProcessInfo) :
    Prop :=
  ∃ regions, maps p.pid = .ok regions ∧ ∃ r ∈ regions, ∃ path, r.path = some path ∧
    ∃ fragment ∈ c.fragments, fragment <:+: Text.lowered path

/-- A process that a sandbox wrapper leads to: one below it that is the target or mentions it or, if
the wrapper mentions the target itself, the wrapper or any process below it. -/
def Wrapped (c : LocatorConfig) (t : ProcessTable) (p : ProcessInfo) : Prop :=
  p ∈ t.processes ∧ ∃ wrapper ∈ t.processes, c.isSandboxWrapper wrapper = true ∧
    (t.Below wrapper.pid p.pid ∧ (c.isTarget p = true ∨ c.mentionsTarget p = true) ∨
      c.mentionsTarget wrapper = true ∧ (p = wrapper ∨ t.Below wrapper.pid p.pid))

/-- What may be found in each way. -/
def Candidate (c : LocatorConfig) (t : ProcessTable)
    (maps : Nat → Except SourceFault (List Region)) : DiscoveryMethod → ProcessInfo → Prop
  | .directName, p => p ∈ t.processes ∧ c.isTarget p = true
  | .compatCommandLine, p => Hosted c t p ∧ c.mentionsTarget p = true
  | .compatModule, p => Hosted c t p ∧ Mapped c maps p
  | .sandbox, p => Wrapped c t p

/-- A way to look for the target answers a candidate, and nothing only if there is none. -/
structure Searches (c : LocatorConfig) (t : ProcessTable)
    (maps : Nat → Except SourceFault (List Region)) (method : DiscoveryMethod)
    (found : Option ProcessInfo) : Prop where
  sound : ∀ p, found = some p → Candidate c t maps method p
  complete : found = none → ∀ p, ¬ Candidate c t maps method p

theorem Searches.of_find? {f : ProcessInfo → Bool}
    (h : ∀ p, p ∈ ps ∧ f p = true ↔ Candidate c t maps method p) :
    Searches c t maps method (ps.find? f) where
  sound p hp := (h p).1 ⟨List.mem_of_find?_eq_some hp, List.find?_some hp⟩
  complete hnone p hp := by
    obtain ⟨hmem, hf⟩ := (h p).2 hp
    exact List.find?_eq_none.1 hnone p hmem hf

theorem searches_byName : Searches c t maps .directName (byName c t) :=
  .of_find? fun _ => Iff.rfl

theorem addNew_cons {q : ProcessInfo} : addNew found (q :: ps) =
    addNew (if found.any (·.pid = q.pid) then found else found ++ [q]) ps := rfl

theorem mem_addNew (h : p ∈ addNew found ps) : p ∈ found ∨ p ∈ ps := by
  induction ps generalizing found with
  | nil => exact .inl h
  | cons q ps ih =>
    rw [addNew_cons] at h
    rcases ih h with hmem | hmem
    · split at hmem
      · exact .inl hmem
      · rw [List.mem_append, List.mem_singleton] at hmem
        rcases hmem with hmem | rfl
        · exact .inl hmem
        · exact .inr List.mem_cons_self
    · exact .inr (List.mem_cons_of_mem q hmem)

theorem pid_mem_addNew {pid : Nat} (h : pid ∈ (found ++ ps).map (·.pid)) :
    pid ∈ (addNew found ps).map (·.pid) := by
  induction ps generalizing found with
  | nil =>
    rw [List.append_nil] at h
    exact h
  | cons q ps ih =>
    rw [addNew_cons]
    apply ih
    split
    · next hold =>
      -- the process that is left out has a number that is there already
      rw [ProcessTable.any_pid] at hold
      rw [List.append_cons, List.map_append, List.map_append, List.map_singleton, List.mem_append,
        List.mem_append, List.mem_singleton] at h
      rw [List.map_append, List.mem_append]
      rcases h with (hmem | heq) | hmem
      · exact .inl hmem
      · exact .inl (heq ▸ hold)
      · exact .inr hmem
    · rwa [← List.append_cons]

theorem mem_families {hosts : List ProcessInfo}
    (h : p ∈ hosts.foldl (fun found host => addNew found (host :: t.descendants host.pid)) found) :
    p ∈ found ∨ ∃ host ∈ hosts, p ∈ host :: t.descendants host.pid := by
  induction hosts generalizing found with
  | nil => exact .inl h
  | cons host hosts ih =>
    rcases ih h with hmem | ⟨host', hhost, hmem⟩
    · rcases mem_addNew hmem with hold | hnew
      · exact .inl hold
      · exact .inr ⟨host, List.mem_cons_self, hnew⟩
    · exact .inr ⟨host', List.mem_cons_of_mem host hhost, hmem⟩

theorem pid_mem_families {pid : Nat} {hosts : List ProcessInfo}
    (h : pid ∈ found.map (·.pid) ∨
      ∃ host ∈ hosts, pid ∈ (host :: t.descendants host.pid).map (·.pid)) :
    pid ∈ (hosts.foldl (fun found host => addNew found (host :: t.descendants host.pid))
      found).map (·.pid) := by
  induction hosts generalizing found with
  | nil =>
    rcases h with hmem | ⟨host, hhost, _⟩
    · exact hmem
    · cases hhost
  | cons host hosts ih =>
    apply ih
    rcases h with hmem | ⟨host', hhost, hmem⟩
    · left
      apply pid_mem_addNew
      rw [List.map_append]
      exact List.mem_append_left _ hmem
    · rcases List.mem_cons.1 hhost with rfl | hhost
      · left
        apply pid_mem_addNew
        rw [List.map_append]
        exact List.mem_append_right _ hmem
      · exact .inr ⟨host', hhost, hmem⟩

theorem mem_cons_descendants {root : ProcessInfo} (hd : t.Distinct) (hroot : root ∈ t.processes) :
    p ∈ root :: t.descendants root.pid ↔
      p ∈ t.processes ∧ (p = root ∨ t.Below root.pid p.pid) := by
  rw [List.mem_cons, hd.mem_descendants_iff]
  constructor
  · rintro (rfl | ⟨hp, hbelow, _⟩)
    · exact ⟨hroot, .inl rfl⟩
    · exact ⟨hp, .inr hbelow⟩
  · rintro ⟨hp, heq | hbelow⟩
    · exact .inl heq
    · by_cases hpid : p.pid = root.pid
      · exact .inl (hd.eq hp hroot hpid)
      · exact .inr ⟨hp, hbelow, hpid⟩

theorem mem_compatFamily (hd : t.Distinct) : p ∈ compatFamily c t ↔ Hosted c t p := by
  rw [compatFamily]
  constructor
  · intro hp
    rcases mem_families hp with hnil | ⟨host, hhost, hp⟩
    · cases hnil
    · obtain ⟨hhost, hcompat⟩ := List.mem_filter.1 hhost
      obtain ⟨hp, hbelow⟩ := (mem_cons_descendants hd hhost).1 hp
      exact ⟨hp, host, hhost, hcompat, hbelow⟩
  · rintro ⟨hp, host, hhost, hcompat, hbelow⟩
    have hfamily : p ∈ host :: t.descendants host.pid :=
      (mem_cons_descendants hd hhost).2 ⟨hp, hbelow⟩
    have hpid : p.pid ∈ (((t.processes.filter c.isCompatHost).foldl
        (fun found host => addNew found (host :: t.descendants host.pid)) []).map (·.pid)) :=
      pid_mem_families (.inr ⟨host, List.mem_filter.2 ⟨hhost, hcompat⟩, List.mem_map_of_mem hfamily⟩)
    obtain ⟨q, hq, heq⟩ := List.mem_map.1 hpid
    -- who is in the family by its number is there itself, as no other process has the number
    have hlisted : q ∈ t.processes := by
      rcases mem_families hq with hnil | ⟨host', hhost', hq⟩
      · cases hnil
      · exact ((mem_cons_descendants hd (List.mem_filter.1 hhost').1).1 hq).1
    exact hd.eq hlisted hp heq ▸ hq

theorem searches_byCompatCommandLine (hd : t.Distinct) :
    Searches c t maps .compatCommandLine (byCompatCommandLine c t) :=
  .of_find? fun _ => and_congr_left fun _ => mem_compatFamily hd

/-- Whether the regions of a process are read and have the module. -/
def hasMapped (c : LocatorConfig) (maps : Nat → Except SourceFault (List Region))
    (p : ProcessInfo) : Bool :=
  (maps p.pid).toOption.any c.hasModule

theorem hasMapped_iff : hasMapped c maps p = true ↔ Mapped c maps p := by
  rw [hasMapped, Mapped]
  cases maps p.pid with
  | error fault => simp [Except.toOption]
  | ok regions => simp [Except.toOption, LocatorConfig.hasModule_iff]

theorem findModule_eq (h : s.Maps w maps) :
    ∃ w', findModule c s ps w = (ps.find? (hasMapped c maps), w') := by
  induction ps generalizing w with
  | nil => exact ⟨w, rfl⟩
  | cons p ps ih =>
    have hanswer : (s.regions p.pid w).1 = maps p.pid := h w .nothing p.pid
    have hnext := h.next p.pid
    rw [findModule, List.find?_cons, hasMapped, ← hanswer]
    generalize s.regions p.pid w = answer at hnext
    obtain ⟨result, w'⟩ := answer
    cases result with
    | error fault => exact ih hnext
    | ok regions =>
      cases hm : c.hasModule regions with
      | false =>
        simp only [hm, Except.toOption, Option.any_some, Bool.false_eq_true, if_false]
        exact ih hnext
      | true =>
        simp only [hm, Except.toOption, Option.any_some, if_true]
        exact ⟨w', rfl⟩

theorem searches_findModule (hd : t.Distinct) (h : s.Maps w maps) :
    Searches c t maps .compatModule (findModule c s (compatFamily c t) w).1 := by
  have hfind : ∃ w', findModule c s (compatFamily c t) w =
      ((compatFamily c t).find? (hasMapped c maps), w') := findModule_eq h
  obtain ⟨w', heq⟩ := hfind
  rw [heq]
  exact .of_find? fun _ => and_congr (mem_compatFamily hd) hasMapped_iff

theorem wrapped_some {wrapper : ProcessInfo} (hd : t.Distinct) (hw : wrapper ∈ t.processes)
    (hs : c.isSandboxWrapper wrapper = true) (h : wrapped c t wrapper = some p) : Wrapped c t p := by
  have hlast (q : ProcessInfo)
      (hq : (t.descendants wrapper.pid).getLast?.getD wrapper = q) :
      q ∈ wrapper :: t.descendants wrapper.pid := by
    cases hl : (t.descendants wrapper.pid).getLast? with
    | none =>
      rw [hl] at hq
      exact hq ▸ List.mem_cons_self
    | some last =>
      rw [hl] at hq
      exact hq ▸ List.mem_cons_of_mem wrapper (List.mem_of_getLast? hl)
  rw [wrapped] at h
  split at h
  · next q hq =>
    cases h
    have hfits := List.find?_some hq
    rw [Bool.or_eq_true] at hfits
    obtain ⟨hp, hbelow, _⟩ := hd.mem_descendants_iff.1 (List.mem_of_find?_eq_some hq)
    exact ⟨hp, wrapper, hw, hs, .inl ⟨hbelow, hfits⟩⟩
  · split at h
    · next hm =>
      obtain ⟨hp, hbelow⟩ := (mem_cons_descendants hd hw).1 (hlast p (Option.some.inj h))
      exact ⟨hp, wrapper, hw, hs, .inr ⟨hm, hbelow⟩⟩
    · cases h

theorem wrapped_none {wrapper : ProcessInfo} (hd : t.Distinct) (hw : wrapper ∈ t.processes)
    (h : wrapped c t wrapper = none) : ¬ c.mentionsTarget wrapper = true ∧
      ∀ q ∈ t.processes, t.Below wrapper.pid q.pid → c.isTarget q = true ∨ c.mentionsTarget q = true →
        q = wrapper := by
  rw [wrapped] at h
  split at h
  · cases h
  · next hnone =>
    split at h
    · cases h
    · next hm =>
      refine ⟨hm, ?_⟩
      intro q hq hbelow hfits
      by_contra hne
      have hmem : q ∈ t.descendants wrapper.pid :=
        hd.mem_descendants_iff.2 ⟨hq, hbelow, fun hpid => hne (hd.eq hq hw hpid)⟩
      exact List.find?_eq_none.1 hnone q hmem (Bool.or_eq_true_iff.2 hfits)

theorem searches_bySandbox (hd : t.Distinct) (hn : byName c t = none) :
    Searches c t maps .sandbox (bySandbox c t) where
  sound p hp := by
    obtain ⟨wrapper, hwrapper, hp⟩ := List.exists_of_findSome?_eq_some hp
    obtain ⟨hw, hs⟩ := List.mem_filter.1 hwrapper
    exact wrapped_some hd hw hs hp
  complete hnone p hp := by
    obtain ⟨hp, wrapper, hw, hs, hfits⟩ := hp
    have hwrapped := List.findSome?_eq_none_iff.1 hnone wrapper (List.mem_filter.2 ⟨hw, hs⟩)
    obtain ⟨hm, hbelow⟩ := wrapped_none hd hw hwrapped
    rcases hfits with ⟨hb, hfits⟩ | ⟨hmentions, _⟩
    · obtain rfl := hbelow p hp hb hfits
      exact hfits.elim (List.find?_eq_none.1 hn p hp) hm
    · exact hm hmentions

/-- The first way with a candidate is taken. -/
theorem find_searches (hd : t.Distinct) (h : s.Maps w maps) :
    (∀ p method, (find c t s w).1 = some (p, method) → Candidate c t maps method p ∧
      ∀ method', method'.rank < method.rank → ∀ q, ¬ Candidate c t maps method' q) ∧
    ((find c t s w).1 = none → ∀ method p, ¬ Candidate c t maps method p) := by
  have hname : Searches c t maps .directName (byName c t) := searches_byName
  have hline : Searches c t maps .compatCommandLine (byCompatCommandLine c t) :=
    searches_byCompatCommandLine hd
  have hmodule := searches_findModule (c := c) hd h
  rw [find]
  cases hn : byName c t with
  | some p =>
    constructor
    · rintro _ _ ⟨⟩
      exact ⟨hname.sound p hn, fun method' hlt => absurd hlt (Nat.not_lt_zero _)⟩
    · rintro ⟨⟩
  | none =>
    have hunnamed := hname.complete hn
    cases hl : byCompatCommandLine c t with
    | some p =>
      refine ⟨?_, by rintro ⟨⟩⟩
      rintro _ _ ⟨⟩
      refine ⟨hline.sound p hl, ?_⟩
      intro method' hlt
      cases method' with
      | directName => exact hunnamed
      | compatCommandLine | compatModule | sandbox => exact absurd hlt (by decide)
    | none =>
      have hunmentioned := hline.complete hl
      generalize findModule c s (compatFamily c t) w = searched at hmodule
      obtain ⟨found, w'⟩ := searched
      cases found with
      | some p =>
        refine ⟨?_, by rintro ⟨⟩⟩
        rintro _ _ ⟨⟩
        refine ⟨hmodule.sound p rfl, ?_⟩
        intro method' hlt
        cases method' with
        | directName => exact hunnamed
        | compatCommandLine => exact hunmentioned
        | compatModule | sandbox => exact absurd hlt (by decide)
      | none =>
        have hunmapped := hmodule.complete rfl
        have hsandbox : Searches c t maps .sandbox (bySandbox c t) := searches_bySandbox hd hn
        cases hs : bySandbox c t with
        | some p =>
          refine ⟨?_, by rintro ⟨⟩⟩
          rintro _ _ ⟨⟩
          refine ⟨hsandbox.sound p hs, ?_⟩
          intro method' hlt
          cases method' with
          | directName => exact hunnamed
          | compatCommandLine => exact hunmentioned
          | compatModule => exact hunmapped
          | sandbox => exact absurd hlt (Nat.lt_irrefl _)
        | none =>
          refine ⟨by rintro _ _ ⟨⟩, ?_⟩
          intro _ method
          cases method with
          | directName => exact hunnamed
          | compatCommandLine => exact hunmentioned
          | compatModule => exact hunmapped
          | sandbox => exact hsandbox.complete hs

/-- There is nothing that would be taken for the target. -/
structure Absent (c : LocatorConfig) (t : ProcessTable)
    (maps : Nat → Except SourceFault (List Region)) : Prop where
  unnamed : ∀ p ∈ t.processes, ¬ c.isTarget p = true
  unmentioned : ∀ p, Hosted c t p → ¬ c.mentionsTarget p = true
  unmapped : ∀ p, Hosted c t p → ¬ Mapped c maps p
  unwrapped : ∀ wrapper ∈ t.processes, c.isSandboxWrapper wrapper = true →
    ¬ c.mentionsTarget wrapper = true ∧ ∀ p ∈ t.processes, t.Below wrapper.pid p.pid →
      ¬ c.isTarget p = true ∧ ¬ c.mentionsTarget p = true

theorem absent_iff : Absent c t maps ↔ ∀ method p, ¬ Candidate c t maps method p := by
  constructor
  · intro h method p hp
    cases method with
    | directName => exact h.unnamed p hp.1 hp.2
    | compatCommandLine => exact h.unmentioned p hp.1 hp.2
    | compatModule => exact h.unmapped p hp.1 hp.2
    | sandbox =>
      obtain ⟨hp, wrapper, hw, hs, hfits⟩ := hp
      obtain ⟨hm, hbelow⟩ := h.unwrapped wrapper hw hs
      rcases hfits with ⟨hb, hfits⟩ | ⟨hmentions, _⟩
      · exact hfits.elim (hbelow p hp hb).1 (hbelow p hp hb).2
      · exact hm hmentions
  · intro h
    constructor
    · exact fun p hp hnamed => h .directName p ⟨hp, hnamed⟩
    · exact fun p hp hmentions => h .compatCommandLine p ⟨hp, hmentions⟩
    · exact fun p hp hmapped => h .compatModule p ⟨hp, hmapped⟩
    · intro wrapper hw hs
      refine ⟨fun hm => h .sandbox wrapper ⟨hw, wrapper, hw, hs, .inr ⟨hm, .inl rfl⟩⟩, ?_⟩
      intro p hp hb
      constructor
      · exact fun hfits => h .sandbox p ⟨hp, wrapper, hw, hs, .inl ⟨hb, .inl hfits⟩⟩
      · exact fun hfits => h .sandbox p ⟨hp, wrapper, hw, hs, .inl ⟨hb, .inr hfits⟩⟩

/-- What is said of a process that was located. -/
structure Discovered (c : LocatorConfig) (t : ProcessTable)
    (maps : Nat → Except SourceFault (List Region)) (l : LocatedProcess) : Prop where
  candidate : ∃ p ∈ t.processes, l.process = { p with hosting := l.process.hosting } ∧
    Candidate c t maps l.method p
  first : ∀ method, method.rank < l.method.rank → ∀ p, ¬ Candidate c t maps method p

theorem Candidate.listed (h : Candidate c t maps method p) : p ∈ t.processes := by
  cases method with
  | directName | sandbox => exact h.1
  | compatCommandLine | compatModule => exact h.1.1

/-- A process that was found, with what it runs in. -/
def described (c : LocatorConfig) (t : ProcessTable) (found : ProcessInfo × DiscoveryMethod) :
    LocatedProcess :=
  ⟨{ found.1 with hosting := hosting c t found.1 found.2 }, found.2⟩

/-- Nothing is located exactly where there is nothing to be taken for the target, and otherwise the
first way with a candidate leads to one. -/
theorem locate_finds_first {w' : W} (hn : c.names ≠ []) (hd : t.Distinct)
    (hp : s.processes w = (.ok t.processes, w')) (hm : s.Maps w' maps) :
    ∃ found, (locate c s w).1 = .ok found ∧ (found = none ↔ Absent c t maps) ∧
      (∀ l, found = some l → Discovered c t maps l) ∧
      ∀ p, Hosted c t p → Mapped c maps p → ∃ l, found = some l ∧ l.method ≠ .sandbox := by
  obtain ⟨hsome, hnone⟩ := find_searches (c := c) hd hm
  have hrun : (locate c s w).1 = .ok ((find c t s w').1.map (described c t)) := by
    rw [locate, if_neg (by rwa [List.isEmpty_iff]), hp]
    dsimp only
    cases (find c t s w').1 with
    | none => rfl
    | some found => rfl
  rw [absent_iff]
  generalize (find c t s w').1 = found at hsome hnone hrun
  cases found with
  | none =>
    refine ⟨none, hrun, ⟨fun _ => hnone rfl, fun _ => rfl⟩, ?_, ?_⟩
    · rintro _ ⟨⟩
    · exact fun p hhosted hmapped => absurd ⟨hhosted, hmapped⟩ (hnone rfl .compatModule p)
  | some answer =>
    obtain ⟨p, method⟩ := answer
    obtain ⟨hcandidate, hfirst⟩ := hsome p method rfl
    refine ⟨_, hrun, ⟨?_, fun h => absurd hcandidate (h method p)⟩, ?_, ?_⟩
    · rintro ⟨⟩
    · rintro _ ⟨⟩
      exact ⟨⟨p, hcandidate.listed, rfl, hcandidate⟩, hfirst⟩
    · intro q hhosted hmapped
      refine ⟨_, rfl, ?_⟩
      rintro rfl
      exact hfirst .compatModule (by decide) q ⟨hhosted, hmapped⟩

/-- A family that goes round, with regions of its last member only to be read. -/
def closedFamily : ListedProcesses where
  processes := [⟨1, "init", [], none, none, .none⟩, ⟨100, "wineserver", [], none, some 102, .none⟩,
    ⟨101, "start", ["start"], none, some 100, .none⟩, ⟨102, "Launcher", [], none, some 101, .none⟩]
  regions := [(102, [⟨.ofNat 0x1000, .ofNat 0x2000, .readExecute, false, 0,
    some "/c/Game/bin/engine.dll"⟩])]
  fails := false
  asked := []

def gameModule : LocatorConfig :=
  { LocatorConfig.standard with names := ["Game"], moduleFragment := some "game/BIN" }

theorem locate_finds_first_closedFamily :
    ∃ l, (locate gameModule ListedProcesses.source closedFamily).1 = .ok (some l) ∧
      l.process.pid = 102 ∧ l.method = .compatModule ∧
      Discovered gameModule ⟨closedFamily.processes⟩
        (fun pid => (closedFamily.regions.lookup pid).elim (.error (.io .permissionDenied)) .ok) l := by
  have hdistinct : ProcessTable.Distinct ⟨closedFamily.processes⟩ := by
    unfold ProcessTable.Distinct
    decide
  obtain ⟨found, hrun, _, hfound, _⟩ := locate_finds_first (c := gameModule) (w := closedFamily)
    (by decide) hdistinct rfl (ListedProcesses.maps_source closedFamily)
  have hlocated : (locate gameModule ListedProcesses.source closedFamily).1 = .ok (some
      ⟨⟨102, "Launcher", [], none, some 101, .compatLayer⟩, .compatModule⟩) := by cbv
  rw [hlocated] at hrun
  cases hrun
  exact ⟨_, hlocated, rfl, rfl, hfound _ rfl⟩

end Locator

end Grapnel
