import Grapnel.Proofs.Injector.Transitions
import Mathlib.Data.List.Perm.Subperm
import Mathlib.Logic.Function.Basic

namespace Grapnel.Injector

variable {D W : Type} {tools : InjectorTools D W}

/-- A change of state, with its place among all changes and the caller that tells of it. -/
structure Notice where
  caller : Nat
  place : Nat
  change : InjectionState × String
deriving DecidableEq

namespace Notice

/-- What a caller has to tell after an operation. -/
def after (caller place : Nat) (events : List (InjectionState × String)) : List Notice :=
  (events.zipIdx place).map fun e => ⟨caller, e.2, e.1⟩

def ofCaller (caller : Nat) (notices : List Notice) : List Notice :=
  notices.filter (·.caller = caller)

variable {caller other place : Nat} {events : List (InjectionState × String)} {notices more : List Notice}
  {notice : Notice}

@[simp] theorem ofCaller_append :
    ofCaller caller (notices ++ more) = ofCaller caller notices ++ ofCaller caller more :=
  List.filter_append ..

theorem mem_ofCaller : notice ∈ ofCaller caller notices ↔ notice ∈ notices ∧ notice.caller = caller := by
  rw [ofCaller, List.mem_filter, decide_eq_true_iff]

theorem caller_of_mem_after (h : notice ∈ after caller place events) : notice.caller = caller := by
  obtain ⟨_, _, rfl⟩ := List.mem_map.1 h
  rfl

@[simp] theorem ofCaller_after_self :
    ofCaller caller (after caller place events) = after caller place events := by
  apply List.filter_eq_self.2
  intro notice hmem
  exact decide_eq_true (caller_of_mem_after hmem)

theorem ofCaller_after_of_ne (h : caller ≠ other) : ofCaller other (after caller place events) = [] := by
  apply List.filter_eq_nil_iff.2
  intro notice hmem hcaller
  exact h ((caller_of_mem_after hmem).symm.trans (of_decide_eq_true hcaller))

@[simp] theorem map_change_after : (after caller place events).map change = events := by
  rw [after, List.map_map]
  exact List.zipIdx_map_fst ..

@[simp] theorem map_place_after :
    (after caller place events).map Notice.place = List.range' place events.length := by
  rw [after, List.map_map]
  exact List.zipIdx_map_snd ..

end Notice

open Notice

/-- An injector with its callers: what they have told, and what each of them still has to tell. -/
structure Shared (D W : Type) where
  injector : Injector D W
  made : List (InjectionState × String)
  cut : Bool
  /-- What operations left to be told, in the order in which it happened. -/
  log : List Notice
  pending : Nat → List Notice
  received : List Notice

namespace Shared

def fresh (i : Injector D W) : Shared D W := ⟨i, [], false, [], fun _ => [], []⟩

/-- Nobody is at work. -/
def Quiet (s : Shared D W) : Prop := ∀ caller, s.pending caller = []

def notices (tools : InjectorTools D W) (s : Shared D W) (caller : Nat) (op : InjectorOperation) :
    List Notice :=
  Notice.after caller s.log.length (s.injector.run tools op).2.1

def operate (tools : InjectorTools D W) (s : Shared D W) (caller : Nat) (op : InjectorOperation) :
    Shared D W where
  injector := (s.injector.run tools op).2.2
  made := s.made ++ s.injector.changes tools op
  cut := s.cut || !(s.injector.run tools op).1.isOk
  log := s.log ++ s.notices tools caller op
  pending := Function.update s.pending caller (s.notices tools caller op)
  received := s.received

def tell (s : Shared D W) (caller : Nat) (notice : Notice) (rest : List Notice) : Shared D W :=
  { s with
    pending := Function.update s.pending caller rest
    received := s.received ++ [notice] }

/-- Somebody still has an older change to tell of. -/
def Overtakes (s : Shared D W) (notice : Notice) : Prop :=
  ∃ caller, ∃ older ∈ s.pending caller, older.place < notice.place

/-- Callers at work, whether each operation began while nobody was at work, and whether no change
overtook an older one. -/
inductive Runs (tools : InjectorTools D W) : (apart inTurn : Prop) → Shared D W → Prop
  | created {locator : LocatorConfig} {config : InjectorConfig} {world : W} {i : Injector D W} :
      create locator config world = .ok i → Runs tools True True (fresh i)
  | operated {apart inTurn : Prop} {s : Shared D W} (caller : Nat) (op : InjectorOperation) :
      Runs tools apart inTurn s → s.pending caller = [] →
      Runs tools (apart ∧ s.Quiet) inTurn (s.operate tools caller op)
  | told {apart inTurn : Prop} {s : Shared D W} (caller : Nat) {notice : Notice} {rest : List Notice} :
      Runs tools apart inTurn s → s.pending caller = notice :: rest →
      Runs tools apart (inTurn ∧ ¬ s.Overtakes notice) (s.tell caller notice rest)
  | started {apart inTurn : Prop} {s : Shared D W} : Runs tools apart inTurn s →
      Runs tools apart inTurn { s with injector := s.injector.startBackground.2 }
  | stopped {apart inTurn : Prop} {s : Shared D W} : Runs tools apart inTurn s →
      Runs tools apart inTurn { s with injector := s.injector.stopBackground }
  | meanwhile {apart inTurn : Prop} {s : Shared D W} (world : W) : Runs tools apart inTurn s →
      Runs tools apart inTurn
        { s with injector := { s.injector with memory := { s.injector.memory with world } } }

variable {apart inTurn : Prop} {s : Shared D W} {caller other : Nat} {notice : Notice}
  {rest : List Notice}

@[simp] theorem operate_log {op : InjectorOperation} :
    (s.operate tools caller op).log = s.log ++ s.notices tools caller op := rfl

@[simp] theorem operate_received {op : InjectorOperation} :
    (s.operate tools caller op).received = s.received := rfl

theorem operate_pending {op : InjectorOperation} : (s.operate tools caller op).pending other =
    if other = caller then s.notices tools caller op else s.pending other :=
  Function.update_apply ..

@[simp] theorem tell_log : (s.tell caller notice rest).log = s.log := rfl

@[simp] theorem tell_received : (s.tell caller notice rest).received = s.received ++ [notice] := rfl

theorem tell_pending : (s.tell caller notice rest).pending other =
    if other = caller then rest else s.pending other :=
  Function.update_apply ..

theorem Runs.history (h : Runs tools apart inTurn s) :
    History tools s.made (s.log.map Notice.change) s.cut s.injector := by
  induction h with
  | created hc => exact .created hc
  | operated caller op _ _ ih =>
    rw [operate_log, List.map_append, notices, map_change_after]
    exact ih.ran op
  | told _ _ _ ih => exact ih
  | started _ ih => exact ih.started
  | stopped _ ih => exact ih.stopped
  | meanwhile world _ ih => exact ih.meanwhile world

/-- Everything in the log was told or is still to be told, by its caller and in the caller's order. -/
structure Kept (s : Shared D W) : Prop where
  places : s.log.map Notice.place = List.range' 0 s.log.length
  callers : ∀ caller, ofCaller caller s.received ++ s.pending caller = ofCaller caller s.log

namespace Kept

theorem mem_log (h : s.Kept) (hmem : notice ∈ s.pending caller) :
    notice ∈ s.log ∧ notice.caller = caller := by
  rw [← mem_ofCaller, ← h.callers]
  exact List.mem_append_right _ hmem

theorem operate (h : s.Kept) (hidle : s.pending caller = []) (op : InjectorOperation) :
    (s.operate tools caller op).Kept where
  places := by
    have hlength : (s.notices tools caller op).length = (s.injector.run tools op).2.1.length := by
      rw [notices, Notice.after, List.length_map, List.length_zipIdx]
    rw [operate_log, List.map_append, List.length_append, h.places, hlength, notices, map_place_after]
    nth_rewrite 2 [← Nat.zero_add s.log.length]
    exact List.range'_append_1
  callers other := by
    rw [operate_pending, operate_received, operate_log, ofCaller_append, ← h.callers]
    split
    · next heq => rw [heq, hidle, List.append_nil, notices, ofCaller_after_self]
    · next hne => rw [notices, ofCaller_after_of_ne (Ne.symm hne), List.append_nil]

theorem tell (h : s.Kept) (hpending : s.pending caller = notice :: rest) :
    (s.tell caller notice rest).Kept where
  places := h.places
  callers other := by
    have hcaller : notice.caller = caller := (h.mem_log (hpending ▸ List.mem_cons_self)).2
    rw [tell_pending, tell_received, tell_log, ← h.callers, ofCaller_append, List.append_assoc]
    split
    · next heq =>
      rw [heq, hpending]
      simp [ofCaller, hcaller]
    · next hne => simp [ofCaller, hcaller, Ne.symm hne]

theorem ascending (h : s.Kept) : s.log.Pairwise (·.place < ·.place) := by
  rw [← List.pairwise_map (f := Notice.place) (R := (· < ·)), h.places]
  exact List.pairwise_lt_range'

theorem pending_ascending (h : s.Kept) (caller : Nat) : (s.pending caller).Pairwise (·.place < ·.place) := by
  have hsuffix : s.pending caller <:+ ofCaller caller s.log := ⟨_, h.callers caller⟩
  exact h.ascending.sublist (hsuffix.sublist.trans List.filter_sublist)

theorem count (h : s.Kept) (notice : Notice) :
    s.received.count notice + (s.pending notice.caller).count notice = s.log.count notice := by
  have hfilter (notices : List Notice) :
      (ofCaller notice.caller notices).count notice = notices.count notice :=
    List.count_filter (decide_eq_true rfl)
  rw [← hfilter s.log, ← h.callers, List.count_append, hfilter]

theorem length_le (h : s.Kept) : s.received.length ≤ s.log.length := by
  apply List.Subperm.length_le
  apply List.subperm_ext_iff.2
  intro notice _
  have hcount := h.count notice
  omega

theorem perm (h : s.Kept) (hquiet : s.Quiet) : s.received.Perm s.log := by
  apply List.perm_iff_count.2
  intro notice
  rw [← h.count notice, hquiet, List.count_nil, Nat.add_zero]

/-- What is told next is the next change exactly if it overtakes none. -/
theorem prefix_tell_iff (h : s.Kept) (hpending : s.pending caller = notice :: rest)
    (hreceived : s.received <+: s.log) :
    s.received ++ [notice] <+: s.log ↔ ¬ s.Overtakes notice := by
  obtain ⟨later, hlater⟩ := hreceived
  have hpart (caller : Nat) : s.pending caller = ofCaller caller later := by
    have hcallers := h.callers caller
    rw [← hlater, ofCaller_append] at hcallers
    exact List.append_cancel_left hcallers
  have hascending : later.Pairwise (·.place < ·.place) := by
    have hlog := h.ascending
    rw [← hlater, List.pairwise_append] at hlog
    exact hlog.2.1
  have hhead : notice ∈ ofCaller caller later := by
    rw [← hpart, hpending]
    exact List.mem_cons_self
  have hnotice : notice ∈ later := (mem_ofCaller.1 hhead).1
  rw [← hlater, List.prefix_append_right_inj]
  constructor
  · rintro ⟨more, rfl⟩ ⟨other, older, hmem, hplace⟩
    rw [hpart, mem_ofCaller, List.singleton_append, List.mem_cons] at hmem
    rcases hmem.1 with rfl | hmore
    · exact absurd hplace (Nat.lt_irrefl _)
    · have hlt := (List.pairwise_cons.1 hascending).1 older hmore
      omega
  · intro hturn
    cases later with
    | nil => cases hnotice
    | cons first more =>
      rcases List.mem_cons.1 hnotice with rfl | hmore
      · exact ⟨more, rfl⟩
      · -- the first one that was not told yet is older, and some caller has to tell it
        have hlt := (List.pairwise_cons.1 hascending).1 notice hmore
        refine absurd ⟨first.caller, first, ?_, hlt⟩ hturn
        rw [hpart, mem_ofCaller]
        exact ⟨List.mem_cons_self, rfl⟩

end Kept

/-- How the callers of a run stand to one another. -/
structure Ordered (apart inTurn : Prop) (s : Shared D W) : Prop where
  kept : s.Kept
  order : inTurn ↔ s.received <+: s.log
  turns : apart → inTurn
  alone : apart → ∀ caller other, s.pending caller ≠ [] → s.pending other ≠ [] → caller = other

namespace Ordered

theorem operate (h : Ordered apart inTurn s) (hidle : s.pending caller = []) (op : InjectorOperation) :
    Ordered (apart ∧ s.Quiet) inTurn (s.operate tools caller op) where
  kept := h.kept.operate hidle op
  order := by
    rw [h.order, operate_received, operate_log]
    constructor
    · intro hreceived
      exact hreceived.trans (List.prefix_append ..)
    · intro hreceived
      exact List.prefix_of_prefix_length_le hreceived (List.prefix_append ..) h.kept.length_le
  turns hapart := h.turns hapart.1
  alone hapart := by
    have hbusy (other : Nat) (hpending : (s.operate tools caller op).pending other ≠ []) :
        other = caller := by
      by_contra hne
      rw [operate_pending, if_neg hne] at hpending
      exact hpending (hapart.2 other)
    intro first second hfirst hsecond
    rw [hbusy first hfirst, hbusy second hsecond]

theorem tell (h : Ordered apart inTurn s) (hpending : s.pending caller = notice :: rest) :
    Ordered apart (inTurn ∧ ¬ s.Overtakes notice) (s.tell caller notice rest) where
  kept := h.kept.tell hpending
  order := by
    rw [h.order, tell_received, tell_log]
    constructor
    · rintro ⟨hreceived, hturn⟩
      exact (h.kept.prefix_tell_iff hpending hreceived).2 hturn
    · intro hnext
      have hreceived : s.received <+: s.log := (List.prefix_append ..).trans hnext
      exact ⟨hreceived, (h.kept.prefix_tell_iff hpending hreceived).1 hnext⟩
  turns hapart := by
    refine ⟨h.turns hapart, ?_⟩
    rintro ⟨other, older, hmem, hplace⟩
    have hsame : other = caller :=
      h.alone hapart other caller (List.ne_nil_of_mem hmem) (hpending ▸ List.cons_ne_nil _ _)
    rw [hsame, hpending] at hmem
    have hascending := h.kept.pending_ascending caller
    rw [hpending] at hascending
    rcases List.mem_cons.1 hmem with rfl | hrest
    · exact absurd hplace (Nat.lt_irrefl _)
    · have hlt := (List.pairwise_cons.1 hascending).1 older hrest
      omega
  alone hapart := by
    have hbusy (other : Nat) (hother : (s.tell caller notice rest).pending other ≠ []) :
        s.pending other ≠ [] := by
      rw [tell_pending] at hother
      split at hother
      · next heq =>
        rw [heq, hpending]
        exact List.cons_ne_nil _ _
      · exact hother
    intro first second hfirst hsecond
    exact h.alone hapart first second (hbusy first hfirst) (hbusy second hsecond)

theorem congr (h : Ordered apart inTurn s) (i : Injector D W) :
    Ordered apart inTurn { s with injector := i } :=
  ⟨⟨h.kept.places, h.kept.callers⟩, h.order, h.turns, h.alone⟩

end Ordered

theorem Runs.ordered (h : Runs tools apart inTurn s) : Ordered apart inTurn s := by
  induction h with
  | created =>
    refine ⟨⟨rfl, fun _ => rfl⟩, iff_of_true trivial List.prefix_rfl, id, ?_⟩
    intro _ _ _ hpending
    exact absurd rfl hpending
  | operated caller op _ hidle ih => exact ih.operate hidle op
  | told caller _ hpending ih => exact ih.tell hpending
  | started _ ih | stopped _ ih | meanwhile _ _ ih => exact ih.congr _

/-- What the observer can rely on however the callers cross each other. -/
structure Observed (apart inTurn : Prop) (s : Shared D W) : Prop where
  path : InjectionState.Path .idle (states s.made) s.injector.state
  /-- The log has all changes up to those of operations that were cut short since the last one. -/
  log : s.log.map Notice.change ++ s.injector.untold = s.made
  whole : s.cut = false → s.injector.untold = []
  places : s.log.map Notice.place = List.range' 0 s.log.length
  /-- A caller tells all that its operations did, once and in order. -/
  callers : ∀ caller, ofCaller caller s.received ++ s.pending caller = ofCaller caller s.log
  all : s.Quiet → s.received.Perm s.log
  order : inTurn ↔ s.received <+: s.log
  turns : apart → inTurn
  last : s.Quiet → inTurn → s.injector.untold = [] → s.received.map Notice.change = s.made ∧
    (states (s.received.map Notice.change)).getLast?.getD .idle = s.injector.state

theorem observed_of_runs (h : Runs tools apart inTurn s) : Observed apart inTurn s := by
  have htraced := h.history.traced
  have hordered := h.ordered
  constructor
  · exact htraced.path
  · exact htraced.kept
  · exact htraced.whole
  · exact hordered.kept.places
  · exact hordered.kept.callers
  · exact hordered.kept.perm
  · exact hordered.order
  · exact hordered.turns
  · intro hquiet hturn huntold
    have hreceived : s.received = s.log :=
      (hordered.order.1 hturn).eq_of_length (hordered.kept.perm hquiet).length_eq
    have hmade : s.received.map Notice.change = s.made := by
      rw [hreceived, ← htraced.kept, huntold, List.append_nil]
    refine ⟨hmade, ?_⟩
    rw [hmade]
    exact htraced.path.last

/-- One caller attaches while another one, which found the target, has still to tell of it. -/
def crossing : Shared Nat Unit :=
  ((fresh nameKnown).operate oneProcess 0 .scan).operate oneProcess 1 .attach

theorem runs_crossing : ∃ apart, Runs oneProcess apart True crossing := by
  have hcreated : create nameKnown.locator nameKnown.config () = .ok nameKnown := by cbv
  have hfresh : Runs oneProcess True True (fresh nameKnown) := .created hcreated
  exact ⟨_, (hfresh.operated 0 .scan rfl).operated 1 .attach rfl⟩

theorem crossing_pending_zero : crossing.pending 0 =
    [⟨0, 0, .scanning, "scanning for target"⟩, ⟨0, 1, .found, "found game (pid 4, DirectName)"⟩] := by
  cbv

theorem crossing_pending_one : crossing.pending 1 =
    [⟨1, 2, .attaching, "attaching to pid 4"⟩,
      ⟨1, 3, .injected, "attached to pid 4, guest VM at 0x0000000000001000"⟩] := by
  cbv

theorem crossing_pending_other {caller : Nat} (h0 : caller ≠ 0) (h1 : caller ≠ 1) :
    crossing.pending caller = [] := by
  rw [crossing, operate_pending, if_neg h1, operate_pending, if_neg h0]
  rfl

theorem observed_of_runs_crossing : ∃ apart inTurn s, Runs oneProcess apart inTurn s ∧ s.Quiet ∧
    inTurn ∧ states (s.received.map Notice.change) = [.scanning, .found, .attaching, .injected] ∧
    Observed apart inTurn s := by
  obtain ⟨apart, hcrossing⟩ := runs_crossing
  have h0 := hcrossing.told 0 crossing_pending_zero
  have h1 := h0.told 0 rfl
  have h2 := h1.told 1 crossing_pending_one
  have hruns := h2.told 1 rfl
  have hobserved := observed_of_runs hruns
  refine ⟨_, _, _, hruns, ?_, hobserved.order.2 ?_, rfl, hobserved⟩
  · intro caller
    simp only [tell_pending]
    split_ifs with hone hzero
    · rfl
    · rfl
    · exact crossing_pending_other hzero hone
  · exact ⟨[], by cbv⟩

/-- When nobody is at work any more, the observer may have heard of an older state last, or of none at all:
the one caller was overtaken while it told of the target, the other one was cut short. -/
theorem told_late_crossing :
    (∃ apart inTurn s, Runs oneProcess apart inTurn s ∧ s.Quiet ∧
      states s.made = [.scanning, .found, .attaching, .injected] ∧
      states (s.received.map Notice.change) = [.attaching, .injected, .scanning, .found] ∧
      s.injector.state = .injected) ∧
    ∃ apart inTurn s, Runs reversed apart inTurn s ∧ s.Quiet ∧
      states s.made = [.scanning, .found, .attaching] ∧ s.received = [] ∧
      s.injector.state = .attaching := by
  constructor
  · obtain ⟨apart, hcrossing⟩ := runs_crossing
    have h0 := hcrossing.told 1 crossing_pending_one
    have h1 := h0.told 1 rfl
    have h2 := h1.told 0 crossing_pending_zero
    refine ⟨_, _, _, h2.told 0 rfl, ?_, by cbv, rfl, by cbv⟩
    intro caller
    simp only [tell_pending]
    split_ifs with hzero hone
    · rfl
    · rfl
    · exact crossing_pending_other hzero hone
  · have hcreated : create nameKnown.locator nameKnown.config () = .ok nameKnown := by cbv
    have hfresh : Runs reversed True True (fresh nameKnown) := .created hcreated
    refine ⟨_, _, _, hfresh.operated 0 .attach rfl, ?_, by cbv, rfl, by cbv⟩
    intro caller
    rw [operate_pending]
    split
    · cbv
    · rfl

end Shared

end Grapnel.Injector
