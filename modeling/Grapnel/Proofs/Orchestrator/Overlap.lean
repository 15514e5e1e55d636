import Grapnel.Orchestrator.Basic
import Grapnel.Proofs.FileTree.Walk
import Grapnel.Proofs.Injector.Consistency

namespace Grapnel

variable {D W : Type}

/-- What is sent of a script. -/
def Job.body (job : Job) : List UInt8 := job.source.toUTF8.toList

namespace Dispatch

/-- Whether the injector counts as executing because of this script. -/
def isSending : Dispatch → Bool
  | .delivering | .ending _ => true
  | _ => false

/-- How many steps there are to come at most. -/
def stepsLeft : Dispatch → Nat
  | .routing => 5
  | .beginning => 4
  | .delivering => 3
  | .ending _ => 2
  | .executing => 1
  | .finished _ => 0

end Dispatch

/-- Scripts in the hands of an orchestrator, each with how far it has come. -/
structure Traffic (D W : Type) where
  orchestrator : Orchestrator D W
  scripts : List (Job × Dispatch)

inductive TrafficEvent where
  | blocked (script : Nat)
  | sent (script : Nat) (body : List UInt8)
  | ran (script : Nat)
deriving DecidableEq

def TrafficEvent.script : TrafficEvent → Nat
  | .blocked n | .sent n _ | .ran n => n

namespace Traffic

variable (tools : InjectorTools D W)

/-- Whether a script is between the beginning and the end of its execution. -/
def Sends (t : Traffic D W) (n : Nat) : Prop := ∃ job d, t.scripts[n]? = some (job, d) ∧ d.isSending

/-- A script takes its next step. -/
def advance (n : Nat) (t : Traffic D W) : Traffic D W :=
  match t.scripts[n]? with
  | some (job, d) =>
    let (d, orchestrator) := t.orchestrator.dispatchStep tools job d
    ⟨orchestrator, t.scripts.set n (job, d)⟩
  | none => t

/-- Whether a script that has come so far is turned away or run by its next step. -/
def decided (n : Nat) (t : Traffic D W) : Dispatch → List TrafficEvent
  | .beginning => if t.scripts.any (·.2.isSending) then [.blocked n] else []
  | .executing => [.ran n]
  | _ => []

/-- What a step tells: what is decided of its script, and what was sent by it. -/
def told (n : Nat) (t : Traffic D W) : List TrafficEvent :=
  match t.scripts[n]? with
  | some (_, d) => t.decided n d ++
      ((t.advance tools n).orchestrator.post.waiting.drop
        t.orchestrator.post.waiting.length).map (.sent n)
  | none => []

end Traffic

/-- Somebody listens at the socket, so that a delivery succeeds whatever is sent. -/
structure Orchestrator.Listened (o : Orchestrator D W) : Prop where
  present : o.post.exists? o.socketPath = true
  accepted : ∀ body, (o.post.deliver o.socketPath body).1 = .ok ()

namespace Traffic

variable {tools : InjectorTools D W} {t t' : Traffic D W} {events : List TrafficEvent}

/-- A script comes in, or takes its next step; the injector does something else by which it stays
attached; or everything but the injector's state changes. All the time somebody listens. -/
inductive Step (tools : InjectorTools D W) (t : Traffic D W) : List TrafficEvent → Traffic D W → Prop
  | start (job : Job) : Step tools t [] { t with scripts := t.scripts ++ [(job, .routing)] }
  | advance (n : Nat) : (t.advance tools n).orchestrator.Listened →
      Step tools t (t.told tools n) (t.advance tools n)
  | inject (op : InjectorOperation) : op ≠ .beginExecution → op ≠ .endExecution →
      (t.orchestrator.inject tools op).2.injector.state.isAttached = true →
      Step tools t [] { t with orchestrator := (t.orchestrator.inject tools op).2 }
  | meanwhile (o : Orchestrator D W) : o.injector.state = t.orchestrator.injector.state →
      o.injector.mode = t.orchestrator.injector.mode → o.Listened →
      Step tools t [] { t with orchestrator := o }

/-- Any number of steps, and what they tell. -/
inductive Runs (tools : InjectorTools D W) (t : Traffic D W) :
    List TrafficEvent → Traffic D W → Prop
  | rest : Runs tools t [] t
  | step {events more : List TrafficEvent} {t' t'' : Traffic D W} :
      Runs tools t events t' → Step tools t' more t'' → Runs tools t (events ++ more) t''

end Traffic

namespace Injector

variable {tools : InjectorTools D W} {i : Injector D W} {op : InjectorOperation}

/-- The state and the reach are left alone. -/
def Steady (i i' : Injector D W) : Prop := i'.state = i.state ∧ i'.mode = i.mode

theorem steady_check (ha' : (i.check tools).2.state.isAttached = true) : i.Steady (i.check tools).2 := by
  revert ha'
  rw [check]
  split
  · next ha =>
    split
    · exact fun _ => ⟨rfl, rfl⟩
    · -- a handle that is lost leaves the injector idle
      rw [loseHandle_of_isAttached]
      · intro hidle
        cases hidle
      · exact ha
    · exact fun _ => ⟨rfl, rfl⟩
  · exact fun _ => ⟨rfl, rfl⟩

theorem steady_perform (ha : i.state.isAttached = true) (hbegin : op ≠ .beginExecution)
    (hend : op ≠ .endExecution) (ha' : (i.perform tools op).2.state.isAttached = true) :
    i.Steady (i.perform tools op).2 := by
  cases op with
  | scan =>
    have hscan : ¬ i.state.canScan = true := fun hc => Standing.not_attached_of_canScan hc ha
    rw [perform, perform.certain, scan, if_neg hscan]
    exact ⟨rfl, rfl⟩
  | attach =>
    rw [perform, attach, if_pos ha]
    exact ⟨rfl, rfl⟩
  | detach =>
    rw [perform, perform.certain, detach, if_pos ha] at ha'
    cases ha'
  | check => exact steady_check ha'
  | beginExecution => exact absurd rfl hbegin
  | endExecution => exact absurd rfl hend
  | round =>
    rw [perform, round, if_pos ha] at ha' ⊢
    exact steady_check ha'

theorem steady_run (ha : i.state.isAttached = true) (hbegin : op ≠ .beginExecution)
    (hend : op ≠ .endExecution) (ha' : (i.run tools op).2.2.state.isAttached = true) :
    i.Steady (i.run tools op).2.2 := by
  have hsteady : (i.perform tools op).2.state.isAttached = true → i.Steady (i.perform tools op).2 :=
    steady_perform ha hbegin hend
  revert ha' hsteady
  rw [run]
  cases i.perform tools op with
  | mk answer i' => cases answer <;> exact fun ha' hsteady => hsteady ha'

end Injector

theorem Post.deliver_accepted {p : Post} {path : String} {body : List UInt8}
    (h : (p.deliver path body).1 = .ok ()) :
    (p.deliver path body).2 = { p with waiting := p.waiting ++ [body] } := by
  revert h
  rw [deliver]
  split
  · nofun
  · split
    · exact fun _ => rfl
    all_goals nofun

namespace Orchestrator

variable {tools : InjectorTools D W} {o : Orchestrator D W} {job : Job}

/-- What a step does to the state of the injector and to what waits at the socket. -/
structure Turns (o o' : Orchestrator D W) (state : InjectionState) (bodies : List (List UInt8)) :
    Prop where
  state : o'.injector.state = state
  mode : o'.injector.mode = o.injector.mode
  waiting : o'.post.waiting = o.post.waiting ++ bodies

/-- How a script moves on while the way to the channel is open. -/
inductive Moves (o : Orchestrator D W) (job : Job) : Dispatch → Dispatch × Orchestrator D W → Prop
  | routed : Moves o job .routing (.beginning, o)
  | begun {o' : Orchestrator D W} : o.injector.state = .injected → o.Turns o' .executing [] →
      Moves o job .beginning (.delivering, o')
  | blocked {o' : Orchestrator D W} : o.injector.state = .executing → o.Turns o' .executing [] →
      Moves o job .beginning (.executing, o')
  | sent {o' : Orchestrator D W} : o.Turns o' o.injector.state [job.body] →
      Moves o job .delivering (.ending true, o')
  | ended {o' : Orchestrator D W} : o.injector.state = .executing → o.Turns o' .injected [] →
      Moves o job (.ending true) (.finished (.ok .remote), o')
  | ran {result : Except EngineFault Route} {o' : Orchestrator D W} : result ≠ .ok .remote →
      o.Turns o' o.injector.state [] → Moves o job .executing (.finished result, o')
  | finished {result : Except EngineFault Route} :
      Moves o job (.finished result) (.finished result, o)

theorem Moves.progress {d : Dispatch} {next : Dispatch × Orchestrator D W} (h : o.Moves job d next) :
    (∃ result, d = .finished result) ∨ next.1.stepsLeft < d.stepsLeft := by
  cases h with
  | routed | begun | blocked | sent | ended | ran =>
    right
    simp only [Dispatch.stepsLeft]
    omega
  | finished => exact .inl ⟨_, rfl⟩

theorem Moves.mode {d : Dispatch} {next : Dispatch × Orchestrator D W} (h : o.Moves job d next) :
    next.2.injector.mode = o.injector.mode := by
  cases h with
  | routed | finished => rfl
  | begun _ hturns | blocked _ hturns | ended _ hturns | ran _ hturns => exact hturns.mode
  | sent hturns => exact hturns.mode

theorem route_remote (hl : o.Listened) (hm : o.injector.mode = .full) : o.route = .remote := by
  rw [route, hm, hl.present]
  rfl

theorem moves_beginning (ha : o.injector.state.isAttached = true) :
    o.Moves job .beginning (o.dispatchStep tools job .beginning) := by
  rw [dispatchStep, inject, Injector.run, Injector.perform, Injector.perform.certain,
    Injector.beginExecution]
  rcases Injector.isAttached_iff.1 ha with hs | hs
  · rw [if_pos hs]
    exact .begun hs ⟨rfl, rfl, (List.append_nil _).symm⟩
  · rw [if_neg (by rw [hs]; decide)]
    exact .blocked hs ⟨hs, rfl, (List.append_nil _).symm⟩

theorem dispatchStep_routing (hl : o.Listened) (hm : o.injector.mode = .full) :
    o.dispatchStep tools job .routing = (.beginning, o) := by
  rw [dispatchStep, route_remote hl hm]
  rfl

theorem dispatchStep_delivering (hl : o.Listened) : o.dispatchStep tools job .delivering =
    (.ending true, { o with post := { o.post with waiting := o.post.waiting ++ [job.body] } }) := by
  have haccepted := hl.accepted job.body
  change (Dispatch.ending (o.post.deliver o.socketPath job.body).1.isOk,
    { o with post := (o.post.deliver o.socketPath job.body).2 }) = _
  rw [haccepted, Post.deliver_accepted haccepted]
  rfl

theorem moves_delivering (hl : o.Listened) :
    o.Moves job .delivering (o.dispatchStep tools job .delivering) := by
  rw [dispatchStep_delivering hl]
  exact .sent ⟨rfl, rfl, rfl⟩

theorem moves_ending (hs : o.injector.state = .executing) :
    o.Moves job (.ending true) (o.dispatchStep tools job (.ending true)) := by
  rw [dispatchStep, inject, Injector.run, Injector.perform, Injector.perform.certain,
    Injector.endExecution, if_pos hs]
  exact .ended hs ⟨rfl, rfl, (List.append_nil _).symm⟩

theorem near_ne_remote {ε : Type} (r : Except ε Unit) :
    r.map (fun _ => Route.near) ≠ .ok .remote := by
  intro h
  cases r <;> cases h

theorem moves_executing : o.Moves job .executing (o.dispatchStep tools job .executing) := by
  rw [dispatchStep]
  exact .ran (near_ne_remote _) ⟨rfl, rfl, (List.append_nil _).symm⟩

end Orchestrator

namespace Traffic

variable {tools : InjectorTools D W} {t t' : Traffic D W} {events more : List TrafficEvent} {n m : Nat}
  {job : Job} {d : Dispatch}

/-- What is told of a script. -/
def ofScript (n : Nat) (events : List TrafficEvent) : List TrafficEvent :=
  events.filter (·.script = n)

/-- What was told of a script that has come so far. -/
inductive Past (n : Nat) (job : Job) : Dispatch → List TrafficEvent → Prop
  | routing : Past n job .routing []
  | beginning : Past n job .beginning []
  | delivering : Past n job .delivering []
  | ending : Past n job (.ending true) [.sent n job.body]
  | executing : Past n job .executing [.blocked n]
  | remote : Past n job (.finished (.ok .remote)) [.sent n job.body]
  | near {result : Except EngineFault Route} : result ≠ .ok .remote →
      Past n job (.finished result) [.blocked n, .ran n]

/-- The injector is executing while one script is on its way, and at most one is. -/
inductive Flow (t : Traffic D W) : Prop where
  | clear : t.orchestrator.injector.state = .injected → (∀ n, ¬ t.Sends n) → Flow t
  | taken (n : Nat) : t.orchestrator.injector.state = .executing →
      (∀ m, t.Sends m ↔ m = n) → Flow t

/-- The way is open, and what was told fits to where every script is. -/
structure Orderly (t : Traffic D W) (events : List TrafficEvent) : Prop where
  listened : t.orchestrator.Listened
  full : t.orchestrator.injector.mode = .full
  flow : t.Flow
  past : ∀ n job d, t.scripts[n]? = some (job, d) → Past n job d (ofScript n events)
  known : ∀ e ∈ events, e.script < t.scripts.length

theorem Flow.attached (h : t.Flow) : t.orchestrator.injector.state.isAttached = true := by
  cases h with
  | clear hs _ => rw [hs]; rfl
  | taken _ hs _ => rw [hs]; rfl

theorem Flow.congr (h : t.Flow)
    (hs : t'.orchestrator.injector.state = t.orchestrator.injector.state)
    (hsends : ∀ n, t'.Sends n ↔ t.Sends n) : t'.Flow := by
  cases h with
  | clear hstate hnone => exact .clear (hs.trans hstate) fun n hn => hnone n ((hsends n).1 hn)
  | taken n hstate hone => exact .taken n (hs.trans hstate) fun m => (hsends m).trans (hone m)

theorem any_isSending : t.scripts.any (·.2.isSending) = true ↔ ∃ n, t.Sends n := by
  rw [List.any_eq_true]
  constructor
  · rintro ⟨script, hmem, hsends⟩
    obtain ⟨n, hn⟩ := List.getElem?_of_mem hmem
    exact ⟨n, script.1, script.2, hn, hsends⟩
  · rintro ⟨n, job, d, hn, hsends⟩
    exact ⟨(job, d), List.mem_of_getElem? hn, hsends⟩

section

variable {d' : Dispatch} {o' : Orchestrator D W}

theorem advance_eq (hn : t.scripts[n]? = some (job, d))
    (hnext : t.orchestrator.dispatchStep tools job d = (d', o')) :
    t.advance tools n = ⟨o', t.scripts.set n (job, d')⟩ := by
  rw [advance, hn]
  dsimp only
  rw [hnext]

theorem getElem?_advance (hn : t.scripts[n]? = some (job, d))
    (hnext : t.orchestrator.dispatchStep tools job d = (d', o')) :
    (t.advance tools n).scripts[m]? = if m = n then some (job, d') else t.scripts[m]? := by
  have hlt : n < t.scripts.length := (List.getElem?_eq_some_iff.1 hn).1
  rw [advance_eq hn hnext, List.getElem?_set, if_pos hlt]
  simp only [eq_comm]

theorem sends_iff (hn : t.scripts[n]? = some (job, d)) : t.Sends n ↔ d.isSending = true := by
  constructor
  · rintro ⟨_, _, heq, hsends⟩
    cases hn.symm.trans heq
    exact hsends
  · exact fun hsends => ⟨job, d, hn, hsends⟩

theorem sends_advance (hn : t.scripts[n]? = some (job, d))
    (hnext : t.orchestrator.dispatchStep tools job d = (d', o')) :
    (t.advance tools n).Sends m ↔ if m = n then d'.isSending = true else t.Sends m := by
  have hm := getElem?_advance (m := m) hn hnext
  split
  · next heq =>
    rw [if_pos heq] at hm
    exact sends_iff hm
  · next hne =>
    rw [if_neg hne] at hm
    rw [Sends, hm, Sends]

theorem Flow.unmoved (h : t.Flow) (hn : t.scripts[n]? = some (job, d))
    (hnext : t.orchestrator.dispatchStep tools job d = (d', o'))
    (hs : o'.injector.state = t.orchestrator.injector.state) (hd : d'.isSending = d.isSending) :
    (t.advance tools n).Flow := by
  apply h.congr
  · rw [advance_eq hn hnext, hs]
  · intro m
    rw [sends_advance hn hnext]
    split
    · next heq => rw [heq, sends_iff hn, hd]
    · rfl

theorem told_eq (hn : t.scripts[n]? = some (job, d))
    (hnext : t.orchestrator.dispatchStep tools job d = (d', o')) {bodies : List (List UInt8)}
    (hbodies : o'.post.waiting = t.orchestrator.post.waiting ++ bodies) :
    t.told tools n = t.decided n d ++ bodies.map (.sent n) := by
  rw [told, hn, advance_eq hn hnext, hbodies, List.drop_left]

end

theorem script_of_told {e : TrafficEvent} (he : e ∈ t.told tools n) : e.script = n := by
  rw [told] at he
  split at he
  · next d _ =>
    rcases List.mem_append.1 he with he | he
    · unfold decided at he
      split at he
      · split at he
        · rw [List.mem_singleton.1 he]; rfl
        · cases he
      · rw [List.mem_singleton.1 he]; rfl
      · cases he
    · obtain ⟨body, _, rfl⟩ := List.mem_map.1 he
      rfl
  · cases he

theorem thread_advance (h : .ran n ∉ t.told tools n) :
    (t.advance tools n).orchestrator.thread = t.orchestrator.thread := by
  cases hn : t.scripts[n]? with
  | none => rw [advance, hn]
  | some script =>
    obtain ⟨job, d⟩ := script
    have hadvance : (t.advance tools n).orchestrator =
        (t.orchestrator.dispatchStep tools job d).2 := by rw [advance, hn]
    rw [hadvance]
    cases d with
    | routing | delivering | ending | finished => rfl
    | beginning =>
      rw [Orchestrator.dispatchStep]
      split
      · next o heq => exact (congrArg (fun next => next.2.thread) heq).symm
      · next o _ heq => exact (congrArg (fun next => next.2.thread) heq).symm
    | executing =>
      rw [told, hn] at h
      exact absurd (List.mem_append_left _ (List.mem_singleton.2 rfl)) h

theorem ofScript_told : ofScript n (t.told tools n) = t.told tools n := by
  rw [ofScript, List.filter_eq_self]
  exact fun e he => decide_eq_true (script_of_told he)

theorem ofScript_told_ne (hne : m ≠ n) : ofScript m (t.told tools n) = [] := by
  rw [ofScript, List.filter_eq_nil_iff]
  intro e he hm
  exact hne ((of_decide_eq_true hm).symm.trans (script_of_told he))

theorem ofScript_append : ofScript n (events ++ more) = ofScript n events ++ ofScript n more :=
  List.filter_append ..

theorem getElem?_concat {scripts : List (Job × Dispatch)} {script script' : Job × Dispatch}
    (hn : (scripts ++ [script])[n]? = some script') :
    scripts[n]? = some script' ∨ n = scripts.length ∧ script = script' := by
  rw [List.getElem?_append] at hn
  split at hn
  · exact .inl hn
  · rw [List.getElem?_singleton] at hn
    split at hn
    · exact .inr ⟨by omega, Option.some.inj hn⟩
    · cases hn

theorem Flow.of_sends (h : t.Flow) (hn : t.Sends n) :
    t.orchestrator.injector.state = .executing ∧ ∀ m, t.Sends m ↔ m = n := by
  cases h with
  | clear _ hnone => exact absurd hn (hnone n)
  | taken k hs hone =>
    obtain rfl := (hone n).1 hn
    exact ⟨hs, hone⟩

theorem Flow.injected_iff (h : t.Flow) :
    t.orchestrator.injector.state = .injected ↔ ∀ n, ¬ t.Sends n := by
  cases h with
  | clear hs hnone => exact ⟨fun _ => hnone, fun _ => hs⟩
  | taken n hs hone =>
    constructor
    · intro hs'
      cases hs.symm.trans hs'
    · exact fun hnone => absurd ((hone n).2 rfl) (hnone n)

theorem Flow.executing_iff (h : t.Flow) :
    t.orchestrator.injector.state = .executing ↔ ∃ n, t.Sends n := by
  cases h with
  | clear hs hnone =>
    constructor
    · intro hs'
      cases hs.symm.trans hs'
    · rintro ⟨n, hn⟩
      exact absurd hn (hnone n)
  | taken n hs hone => exact ⟨fun _ => ⟨n, (hone n).2 rfl⟩, fun _ => hs⟩

namespace Orderly

theorem moves (tools : InjectorTools D W) (h : Orderly t events)
    (hn : t.scripts[n]? = some (job, d)) :
    t.orchestrator.Moves job d (t.orchestrator.dispatchStep tools job d) := by
  have hpast := h.past n job d hn
  cases d with
  | routing =>
    rw [Orchestrator.dispatchStep_routing h.listened h.full]
    exact .routed
  | beginning => exact Orchestrator.moves_beginning h.flow.attached
  | delivering => exact Orchestrator.moves_delivering h.listened
  | ending delivered =>
    obtain ⟨hs, _⟩ := h.flow.of_sends ⟨job, _, hn, rfl⟩
    generalize ofScript n events = before at hpast
    -- no script has come to an end without having been delivered
    cases hpast
    exact Orchestrator.moves_ending hs
  | executing => exact Orchestrator.moves_executing
  | finished result => exact .finished

/-- A script sets out only where no other one is on its way, and the way is clear when it arrives. -/
theorem flow_advance (h : Orderly t events) (hn : t.scripts[n]? = some (job, d)) :
    (t.advance tools n).Flow := by
  have hmoves := h.moves tools hn
  generalize hnext : t.orchestrator.dispatchStep tools job d = next at hmoves
  cases hmoves with
  | routed => exact h.flow.unmoved hn hnext rfl rfl
  | begun hs hturns =>
    have hnone := h.flow.injected_iff.1 hs
    refine .taken n (by rw [advance_eq hn hnext, hturns.state]) fun m => ?_
    rw [sends_advance hn hnext]
    split
    · next heq => exact ⟨fun _ => heq, fun _ => rfl⟩
    · next hne => exact ⟨fun hm => absurd hm (hnone m), fun heq => absurd heq hne⟩
  | blocked hs hturns => exact h.flow.unmoved hn hnext (hturns.state.trans hs.symm) rfl
  | sent hturns => exact h.flow.unmoved hn hnext hturns.state rfl
  | ended hs hturns =>
    obtain ⟨_, hone⟩ := h.flow.of_sends ((sends_iff hn).2 rfl)
    refine .clear (by rw [advance_eq hn hnext, hturns.state]) fun m => ?_
    rw [sends_advance hn hnext]
    split
    · nofun
    · next hne => exact fun hm => hne ((hone m).1 hm)
  | ran _ hturns => exact h.flow.unmoved hn hnext hturns.state rfl
  | finished => exact h.flow.unmoved hn hnext rfl rfl

/-- What a step tells of its script fits to where the script is then. -/
theorem past_advance (h : Orderly t events) (hn : t.scripts[n]? = some (job, d)) :
    Past n job (t.orchestrator.dispatchStep tools job d).1
      (ofScript n events ++ t.told tools n) := by
  have hpast := h.past n job d hn
  have hmoves := h.moves tools hn
  generalize hnext : t.orchestrator.dispatchStep tools job d = next at hmoves ⊢
  generalize ofScript n events = before at hpast ⊢
  cases hmoves with
  | routed =>
    rw [told_eq hn hnext (List.append_nil _).symm]
    cases hpast
    exact .beginning
  | begun hs hturns =>
    have hclear : ¬ t.scripts.any (·.2.isSending) = true := by
      rw [any_isSending]
      rintro ⟨k, hk⟩
      exact h.flow.injected_iff.1 hs k hk
    rw [told_eq hn hnext hturns.waiting, decided, if_neg hclear]
    cases hpast
    exact .delivering
  | blocked hs hturns =>
    have htaken : t.scripts.any (·.2.isSending) = true := by
      rw [any_isSending]
      by_contra hnone
      have hs' := h.flow.injected_iff.2 fun k hk => hnone ⟨k, hk⟩
      cases hs.symm.trans hs'
    rw [told_eq hn hnext hturns.waiting, decided, if_pos htaken]
    cases hpast
    exact .executing
  | sent hturns =>
    rw [told_eq hn hnext hturns.waiting]
    cases hpast
    exact .ending
  | ended hs hturns =>
    rw [told_eq hn hnext hturns.waiting]
    cases hpast
    exact .remote
  | ran hresult hturns =>
    rw [told_eq hn hnext hturns.waiting]
    cases hpast
    exact .near hresult
  | @finished result =>
    have hnothing : t.decided n (.finished result) = [] := rfl
    rw [told_eq hn hnext (List.append_nil _).symm, hnothing, List.map_nil, List.append_nil,
      List.append_nil]
    exact hpast

theorem full_advance (h : Orderly t events) (hn : t.scripts[n]? = some (job, d)) :
    (t.advance tools n).orchestrator.injector.mode = .full := by
  rw [advance_eq hn rfl]
  exact (h.moves tools hn).mode.trans h.full

theorem advance (h : Orderly t events) (hl : (t.advance tools n).orchestrator.Listened) :
    Orderly (t.advance tools n) (events ++ t.told tools n) := by
  cases hn : t.scripts[n]? with
  | none =>
    have hnothing : t.told tools n = [] := by rw [told, hn]
    have hstill : t.advance tools n = t := by rw [Traffic.advance, hn]
    rw [hnothing, hstill, List.append_nil]
    exact h
  | some script =>
    obtain ⟨job, d⟩ := script
    refine ⟨hl, h.full_advance hn, h.flow_advance hn, ?_, ?_⟩
    · intro m job' d' hm
      rw [getElem?_advance hn rfl] at hm
      rw [ofScript_append]
      split at hm
      · next heq =>
        cases hm
        rw [heq, ofScript_told]
        exact h.past_advance hn
      · next hne =>
        rw [ofScript_told_ne hne, List.append_nil]
        exact h.past m job' d' hm
    · intro e he
      rw [advance_eq hn rfl, List.length_set]
      rcases List.mem_append.1 he with he | he
      · exact h.known e he
      · rw [script_of_told he]
        exact (List.getElem?_eq_some_iff.1 hn).1

theorem start (h : Orderly t events) (job : Job) :
    Orderly { t with scripts := t.scripts ++ [(job, .routing)] } events where
  listened := h.listened
  full := h.full
  flow := by
    refine h.flow.congr rfl fun n => ⟨?_, ?_⟩
    · rintro ⟨job', d, hn, hsends⟩
      rcases getElem?_concat hn with hn | ⟨_, heq⟩
      · exact ⟨job', d, hn, hsends⟩
      · cases heq
        cases hsends
    · rintro ⟨job', d, hn, hsends⟩
      refine ⟨job', d, ?_, hsends⟩
      rw [List.getElem?_append_left (List.getElem?_eq_some_iff.1 hn).1, hn]
  past n job' d hn := by
    rcases getElem?_concat hn with hn | ⟨hlast, heq⟩
    · exact h.past n job' d hn
    · -- nothing was told of a script that comes in now
      have hnothing : ofScript n events = [] := by
        rw [ofScript, List.filter_eq_nil_iff]
        intro e he hscript
        have hlt := h.known e he
        have hn := of_decide_eq_true hscript
        omega
      cases heq
      rw [hnothing]
      exact .routing
  known e he := by
    rw [List.length_append]
    exact Nat.lt_add_right _ (h.known e he)

theorem congr {o : Orchestrator D W} (h : Orderly t events)
    (hs : o.injector.state = t.orchestrator.injector.state)
    (hm : o.injector.mode = t.orchestrator.injector.mode) (hl : o.Listened) :
    Orderly { t with orchestrator := o } events where
  listened := hl
  full := hm.trans h.full
  flow := h.flow.congr hs fun _ => Iff.rfl
  past := h.past
  known := h.known

theorem step (h : Orderly t events) (hstep : Step tools t more t') : Orderly t' (events ++ more) := by
  cases hstep with
  | start job =>
    rw [List.append_nil]
    exact h.start job
  | advance n hl => exact h.advance hl
  | inject op hbegin hend ha' =>
    obtain ⟨hs, hm⟩ := Injector.steady_run h.flow.attached hbegin hend ha'
    rw [List.append_nil]
    exact h.congr hs hm ⟨h.listened.present, h.listened.accepted⟩
  | meanwhile o hs hm hl =>
    rw [List.append_nil]
    exact h.congr hs hm hl

theorem runs (h : Orderly t []) (hruns : Runs tools t events t') : Orderly t' events := by
  induction hruns with
  | rest => exact h
  | step _ hstep ih => exact ih.step hstep

end Orderly

/-- No script is at hand, and the way to the channel is open. -/
structure Open (t : Traffic D W) : Prop where
  idle : t.scripts = []
  injected : t.orchestrator.injector.state = .injected
  full : t.orchestrator.injector.mode = .full
  listened : t.orchestrator.Listened

theorem Open.orderly (h : t.Open) : Orderly t [] where
  listened := h.listened
  full := h.full
  flow := by
    refine .clear h.injected ?_
    rintro n ⟨_, _, hn, _⟩
    rw [h.idle] at hn
    cases hn
  past n job d hn := by
    rw [h.idle] at hn
    cases hn
  known _ he := nomatch he

/-- How scripts were handled among each other while the way to the channel was open. -/
structure Handled (tools : InjectorTools D W) (t : Traffic D W) (events : List TrafficEvent) :
    Prop where
  /-- A script that came in now would go to the channel, as far as the orchestrator tells. -/
  route : t.orchestrator.route = .remote
  /-- A script that was not turned away was delivered once, and not run. -/
  delivered : ∀ n job result, t.scripts[n]? = some (job, .finished result) → .blocked n ∉ events →
    result = .ok .remote ∧ ofScript n events = [.sent n job.body]
  /-- A script that was turned away was run once, and not delivered. -/
  turnedAway : ∀ n job result, t.scripts[n]? = some (job, .finished result) → .blocked n ∈ events →
    result ≠ .ok .remote ∧ ofScript n events = [.blocked n, .ran n]
  engine : ∀ n, .ran n ∉ t.told tools n →
    (t.advance tools n).orchestrator.thread = t.orchestrator.thread
  executing_iff : t.orchestrator.injector.state = .executing ↔ ∃ n, t.Sends n
  /-- Nothing is left behind. -/
  rests : (∀ script ∈ t.scripts, ∃ result, script.2 = .finished result) →
    t.orchestrator.injector.state = .injected
  alone : ∀ n m, t.Sends n → t.Sends m → m = n
  /-- No script has to wait for another one. -/
  proceeds : ∀ n job d, t.scripts[n]? = some (job, d) → (∃ result, d = .finished result) ∨
    ∃ d', (t.advance tools n).scripts[n]? = some (job, d') ∧ d'.stepsLeft < d.stepsLeft

theorem mem_of_ofScript {e : TrafficEvent} (h : e ∈ ofScript n events) : e ∈ events :=
  (List.mem_filter.1 h).1

namespace Orderly

theorem delivered {result : Except EngineFault Route} (h : Orderly t events)
    (hn : t.scripts[n]? = some (job, .finished result)) (hblocked : .blocked n ∉ events) :
    result = .ok .remote ∧ ofScript n events = [.sent n job.body] := by
  have hpast := h.past n job _ hn
  have hnot : TrafficEvent.blocked n ∉ ofScript n events := fun hmem => hblocked (mem_of_ofScript hmem)
  generalize ofScript n events = told at hpast hnot ⊢
  cases hpast with
  | remote => exact ⟨rfl, rfl⟩
  | near => exact absurd (List.mem_cons_self ..) hnot

theorem turnedAway {result : Except EngineFault Route} (h : Orderly t events)
    (hn : t.scripts[n]? = some (job, .finished result)) (hblocked : .blocked n ∈ events) :
    result ≠ .ok .remote ∧ ofScript n events = [.blocked n, .ran n] := by
  have hpast := h.past n job _ hn
  have hmem : TrafficEvent.blocked n ∈ ofScript n events :=
    List.mem_filter.2 ⟨hblocked, decide_eq_true rfl⟩
  generalize ofScript n events = told at hpast hmem ⊢
  cases hpast with
  | remote => cases List.mem_singleton.1 hmem
  | near hresult => exact ⟨hresult, rfl⟩

theorem handled (h : Orderly t events) : Handled tools t events where
  route := Orchestrator.route_remote h.listened h.full
  delivered _ _ _ hn hblocked := h.delivered hn hblocked
  turnedAway _ _ _ hn hblocked := h.turnedAway hn hblocked
  engine _ := thread_advance
  executing_iff := h.flow.executing_iff
  rests hall := by
    apply h.flow.injected_iff.2
    rintro n ⟨job, d, hn, hsends⟩
    obtain ⟨result, rfl⟩ := hall _ (List.mem_of_getElem? hn)
    cases hsends
  alone n m hn hm := ((h.flow.of_sends hn).2 m).1 hm
  proceeds n job d hn := by
    refine (h.moves tools hn).progress.imp_right fun hlt => ⟨_, ?_, hlt⟩
    exact (getElem?_advance hn rfl).trans (if_pos rfl)

end Orderly

/-- While the way to the channel is open, a script takes it unless another one is on its way when it
sets out. -/
theorem handled_of_runs (h : t.Open) (hruns : Runs tools t events t') : Handled tools t' events :=
  (h.orderly.runs hruns).handled

/-- Some run leads from one traffic to the other. -/
def Leads (tools : InjectorTools D W) (t t' : Traffic D W) : Prop := ∃ events, Runs tools t events t'

theorem Leads.advance {d' : Dispatch} {o' : Orchestrator D W} (h : Leads tools t t')
    (hn : t'.scripts[n]? = some (job, d))
    (hnext : t'.orchestrator.dispatchStep tools job d = (d', o')) (hl : o'.Listened) :
    Leads tools t ⟨o', t'.scripts.set n (job, d')⟩ := by
  obtain ⟨events, hruns⟩ := h
  have hstep : Step tools t' (t'.told tools n) (t'.advance tools n) := by
    apply Step.advance
    rwa [advance_eq hn hnext]
  rw [advance_eq hn hnext] at hstep
  exact ⟨_, hruns.step hstep⟩

/-- A socket at which somebody listens. -/
def listener : Node := .directory [("s", .socket true)]

/-- An orchestrator that is attached in full and sends to that socket. -/
def attended (state : InjectionState) (thread : EngineThread) (waiting : List (List UInt8)) :
    Orchestrator Nat Unit where
  injector := { Injector.nameKnown with state, mode := .full }
  thread
  interceptor := .create .amd64
  socketPath := "/s"
  jobs := []
  isRunning := true
  post := ⟨listener, waiting⟩

theorem listened_attended {state : InjectionState} {thread : EngineThread}
    {waiting : List (List UInt8)} : (attended state thread waiting).Listened := by
  have hnames : Path.names "/s" = ["s"] := by cbv
  have hsocket : Post.socketNames "/s" = .ok (Path.names "/s") := by
    rw [Post.socketNames, if_neg (by decide), if_neg (by decide)]
  have hwalk : FileTree.walk listener ["s"] = .ok ⟨["s"], some (.socket true)⟩ :=
    FileTree.walk_of_walks (by decide) (.enter ⟨by decide, rfl⟩ rfl id .stop)
  constructor
  · change (FileTree.find? listener (Path.names "/s")).isSome = true
    rw [hnames, FileTree.find?, hwalk]
    rfl
  · intro body
    change (Post.deliver ⟨listener, waiting⟩ "/s" body).1 = .ok ()
    rw [Post.deliver, hsocket, hnames]
    dsimp only
    rw [hwalk]

/-- A machine that takes scripts. -/
def bareThread : EngineThread :=
  .ofEngine (.running (Machine.bare ⟨default, listener, 0, .lowered, none, []⟩ ⟨[], .sound⟩))

/-- Whether a run ended well and left the files as they were. -/
def leavesListener {ε : Type} : Except ε Unit × EngineThread × Node → Bool
  | (.ok _, _, .directory [("s", .socket true)]) => true
  | _ => false

theorem of_leavesListener {ε : Type} {ran : Except ε Unit × EngineThread × Node}
    (h : leavesListener ran = true) : ∃ thread, ran = (.ok (), thread, listener) := by
  rw [leavesListener.eq_def] at h
  split at h
  · exact ⟨_, rfl⟩
  · cases h

theorem onFiles_bareThread : ∃ thread, (bareThread.onFiles listener fun t =>
    t.execute (Guest.text "") "second") = (.ok (), thread, listener) :=
  of_leavesListener (by decide +kernel)

def twoScripts (o : Orchestrator Nat Unit) (d d' : Dispatch) : Traffic Nat Unit :=
  ⟨o, [(⟨"a", "first"⟩, d), (⟨"", "second"⟩, d')]⟩

def opening : Traffic Nat Unit := ⟨attended .injected bareThread [], []⟩

theorem open_opening : opening.Open := ⟨rfl, rfl, rfl, listened_attended⟩

theorem leads_crossing : ∃ o, Leads Injector.oneProcess opening
    (twoScripts o (.finished (.ok .remote)) (.finished (.ok .near))) := by
  obtain ⟨thread, hran⟩ := onFiles_bareThread
  let calm := attended .injected bareThread []
  let busy := attended .executing bareThread []
  let body := Job.body ⟨"a", "first"⟩
  have h : Leads Injector.oneProcess opening (twoScripts calm .routing .routing) :=
    ⟨_, (Runs.rest.step (.start ⟨"a", "first"⟩)).step (.start ⟨"", "second"⟩)⟩
  have h : Leads Injector.oneProcess opening (twoScripts calm .beginning .routing) :=
    h.advance (n := 0) rfl (Orchestrator.dispatchStep_routing listened_attended rfl) listened_attended
  have h : Leads Injector.oneProcess opening (twoScripts busy .delivering .routing) :=
    h.advance (n := 0) rfl rfl listened_attended
  have h : Leads Injector.oneProcess opening (twoScripts busy .delivering .beginning) :=
    h.advance (n := 1) rfl (Orchestrator.dispatchStep_routing listened_attended rfl) listened_attended
  have h : Leads Injector.oneProcess opening (twoScripts busy .delivering .executing) :=
    h.advance (n := 1) rfl rfl listened_attended
  have h : Leads Injector.oneProcess opening
      (twoScripts (attended .executing bareThread [body]) (.ending true) .executing) :=
    h.advance (n := 0) rfl (Orchestrator.dispatchStep_delivering listened_attended) listened_attended
  have h : Leads Injector.oneProcess opening
      (twoScripts (attended .injected bareThread [body]) (.finished (.ok .remote)) .executing) :=
    h.advance (n := 0) rfl rfl listened_attended
  have hnear : (attended .injected bareThread [body]).dispatchStep Injector.oneProcess
      ⟨"", "second"⟩ .executing = (.finished (.ok .near), attended .injected thread [body]) := by
    rw [Orchestrator.dispatchStep]
    dsimp only [attended]
    rw [hran]
    rfl
  exact ⟨_, h.advance (n := 1) rfl hnear listened_attended⟩

theorem handled_of_runs_crossing :
    ∃ o events, Runs Injector.oneProcess opening events
        (twoScripts o (.finished (.ok .remote)) (.finished (.ok .near))) ∧
      ofScript 0 events = [.sent 0 (Job.body ⟨"a", "first"⟩)] ∧
      ofScript 1 events = [.blocked 1, .ran 1] ∧ o.injector.state = .injected ∧ o.route = .remote := by
  obtain ⟨o, events, hruns⟩ := leads_crossing
  have hhandled := handled_of_runs open_opening hruns
  have hfirst : .blocked 0 ∉ events := fun hblocked =>
    (hhandled.turnedAway 0 ⟨"a", "first"⟩ _ rfl hblocked).1 rfl
  have hsecond : .blocked 1 ∈ events := by
    by_contra hblocked
    cases (hhandled.delivered 1 ⟨"", "second"⟩ _ rfl hblocked).1
  refine ⟨o, events, hruns, (hhandled.delivered 0 _ _ rfl hfirst).2,
    (hhandled.turnedAway 1 _ _ rfl hsecond).2, hhandled.rests ?_, hhandled.route⟩
  intro script hscript
  simp only [twoScripts, List.mem_cons, List.not_mem_nil, or_false] at hscript
  rcases hscript with rfl | rfl <;> exact ⟨_, rfl⟩

end Traffic

end Grapnel
