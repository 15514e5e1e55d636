import Grapnel.Machine.Step
import Mathlib

namespace Grapnel

open Guest

namespace Action

variable {α β : Type} {run : Machine → Machine} {m m' : Machine}

theorem run_bind (a : Action α) (f : α → Action β) :
    (a >>= f).run run m = match a.run run m with
      | (.ok x, m') => (f x).run run m'
      | (.error e, m') => (.error e, m') := by
  simp only [ReaderT.run, bind, ReaderT.bind, ExceptT.bind, ExceptT.mk, StateT.bind,
    ExceptT.bindCont]
  rcases a run m with ⟨x | e, m'⟩ <;> rfl

theorem run_bind_ok {a : Action α} {f : α → Action β} {x : α} (h : a.run run m = (.ok x, m')) :
    (a >>= f).run run m = (f x).run run m' := by
  rw [run_bind, h]

theorem run_bind_error {a : Action α} {f : α → Action β} {e : Value}
    (h : a.run run m = (.error e, m')) : (a >>= f).run run m = (.error e, m') := by
  rw [run_bind, h]

theorem run_get (m : Machine) : (get : Action Machine).run run m = (.ok m, m) := rfl

theorem run_bind_heap (f : Heap → Action β) :
    (heap >>= f).run run m = (f m.heap).run run m := rfl

theorem of_run_bind {a : Action α} {f : α → Action β} {y : β}
    (h : (a >>= f).run run m = (.ok y, m')) :
    ∃ x m₁, a.run run m = (.ok x, m₁) ∧ (f x).run run m₁ = (.ok y, m') := by
  rw [run_bind] at h
  split at h
  · next x m₁ ha => exact ⟨x, m₁, ha, h⟩
  · cases h

/-- An action that ends with an error, whatever a handler makes of it. -/
def Raises (a : Action α) : Prop :=
  ∀ (run : Machine → Machine) (m : Machine), ∃ e m', a.run run m = (.error e, m')

theorem raises_throw (error : Value) : Raises (throw error : Action α) :=
  fun _ m => ⟨error, m, rfl⟩

theorem raises_bind {a : Action α} {f : α → Action β} (hf : ∀ x, Raises (f x)) :
    Raises (a >>= f) := fun run m => by
  rw [run_bind]
  split
  · exact hf _ run _
  · exact ⟨_, _, rfl⟩

theorem raises_fail (error : Value) : Raises (fail error : Action α) :=
  raises_bind fun _ => raises_throw _

theorem raises_failAt (level : Nat) (message : Text) : Raises (failAt level message : Action α) :=
  raises_bind fun _ => raises_fail _

theorem raises_raise (failure : Failure) : Raises (HostAction.raise failure : Action α) :=
  raises_bind fun _ => raises_fail _

theorem raises_refuse (c : NativeCall) (i : Nat) (reason : Text) :
    Raises (c.refuse i reason : Action α) := by
  unfold NativeCall.refuse
  split
  · split
    · exact raises_failAt _ _
    · exact raises_failAt _ _
  · exact raises_failAt _ _
  · exact raises_bind fun _ => raises_failAt _ _

theorem raises_refuseType (c : NativeCall) (i : Nat) (expected : String) :
    Raises (c.refuseType i expected : Action α) := by
  simp only [NativeCall.refuseType]
  split
  · exact raises_bind fun _ => raises_bind fun _ => raises_refuse _ _ _
  · exact raises_bind fun _ => raises_refuse _ _ _

end Action

namespace Step

open Grapnel.Action

variable {run : Machine → Machine} {m m' : Machine} {f : Frame} {below : List Frame}

/-- A look at the stop flag raises an error or changes nothing but the flag and the countdown. -/
theorem run_watch (run : Machine → Machine) (m : Machine) :
    (∃ e m', watch.run run m = (.error e, m')) ∨
    ∃ countdown stop, watch.run run m =
      (.ok (), { m with countdown, host := { m.host with stop } }) := by
  have hlook : (∃ e m', (watch.look m).run run m = (.error e, m')) ∨
      ∃ countdown stop, (watch.look m).run run m =
        (.ok (), { m with countdown, host := { m.host with stop } }) := by
    rw [watch.look]
    rcases m.host.stop.look m.host.reports.length with ⟨stops, stop⟩
    cases stops with
    | false => exact .inr ⟨some (Coroutine.interval m), stop, rfl⟩
    | true => exact .inl (raises_raise _ run _)
  rw [watch, run_bind_ok rfl]
  rcases hcount : m.countdown with _ | _ | n
  · exact .inr ⟨m.countdown, m.host.stop, rfl⟩
  · exact hlook
  · dsimp only
    by_cases hn : n = 0
    · rw [if_pos hn]
      exact hlook
    · rw [if_neg hn]
      exact .inr ⟨some n, m.host.stop, rfl⟩

theorem run_setTop (a : Activation) (h : m.frames = f :: below) :
    (setTop a).run run m = (.ok (), { m with frames := { f with call := .guest a } :: below }) := by
  obtain ⟨heap, globals, libraries, natives, thread, frames, baseDepth, control⟩ := m
  cases h
  rfl

theorem exists_run_setTop (run : Machine → Machine) (m : Machine) (a : Activation) :
    ∃ frames, (setTop a).run run m = (.ok (), { m with frames }) := by
  rcases hframes : m.frames with _ | ⟨f, below⟩
  · refine ⟨[], ?_⟩
    obtain ⟨heap, globals, libraries, natives, thread, frames, baseDepth, control⟩ := m
    cases hframes
    rfl
  · exact ⟨_, run_setTop a hframes⟩

theorem run_execute {a : Activation} {i : Instr} {depth used : Nat}
    (h : m.frames = ⟨.guest a, depth, used⟩ :: below) (hi : a.proto.code[a.pc]? = some i) :
    execute.run run m = (instruction { a with pc := a.pc + 1 } i).run run
      { m with frames := ⟨.guest { a with pc := a.pc + 1 }, depth, used⟩ :: below } := by
  have htop : top.run run m = (.ok a, m) := by
    obtain ⟨heap, globals, libraries, natives, thread, frames, baseDepth, control⟩ := m
    cases h
    rfl
  rw [execute, run_bind_ok htop, hi]
  exact run_bind_ok (run_setTop _ h)

section

variable (a : Activation)

theorem instruction_loadSlot (i : Nat) : instruction a (.loadSlot i) =
    Action.heap >>= fun heap => pushValue a a.stack (readSlot heap a i) := rfl

theorem instruction_loadCaptured (i : Nat) : instruction a (.loadCaptured i) =
    Action.heap >>= fun heap => pushValue a a.stack (readCaptured heap a i) := rfl

theorem instruction_storeCaptured (i : Nat) : instruction a (.storeCaptured i) =
    setTop { a with stack := a.stack.tail } >>= fun _ =>
      Action.modifyHeap (·.setCell (a.captured.getD i default) (a.stack.headD .nil)) := rfl

theorem instruction_jumpUnless (target : Nat) : instruction a (.jumpUnless target) =
    setTop { a with
      stack := a.stack.tail
      pc := if (a.stack.headD .nil).truthy then a.pc else target } := rfl

theorem instruction_jumpKeepUnless (target : Nat) : instruction a (.jumpKeepUnless target) =
    if (a.stack.headD .nil).truthy then setTop { a with stack := a.stack.tail }
    else setTop { a with pc := target } := rfl

theorem instruction_call {n : Nat} (want : Nat) (name : Option Origin) :
    instruction a (.call n false (some (want + 1)) name) =
      callThen { a with stack := (a.stack.drop n).tail, spread := 0 } (.results (some (want + 1)))
        ((a.stack.drop n).headD .nil) (a.stack.take n).reverse name := rfl

theorem instruction_tailCall {n : Nat} (name : Option Origin) :
    instruction a (.tailCall n false name) =
      tailCall { a with stack := (a.stack.drop n).tail, spread := 0 } ((a.stack.drop n).headD .nil)
        (a.stack.take n).reverse name := rfl

theorem instruction_ret {n : Nat} :
    instruction a (.ret n false) = leave (a.stack.take n).reverse := rfl

theorem instruction_binary (op : BinaryOp) (x y : Operand) (xOrigin yOrigin : Option Origin) :
    ∃ origin, instruction a (.binary op x y xOrigin yOrigin) = Action.heap >>= fun heap =>
      binary a (operand heap a (operand heap a a.stack y).2 x).2 op
        (operand heap a (operand heap a a.stack y).2 x).1 (operand heap a a.stack y).1 origin :=
  ⟨_, rfl⟩

end

theorem run_calleeDepth {kind : String} (name : Text) (h : kind ≠ "metamethod") :
    (calleeDepth (some ⟨kind, name⟩)).run run m = (.ok m.depth, m) := by
  rw [calleeDepth, run_bind_ok rfl]
  split
  · next heq =>
    cases heq
    exact absurd rfl h
  · rfl

theorem calleeDepth_ok {origin : Option Origin} {depth : Nat}
    (h : (calleeDepth origin).run run m = (.ok depth, m')) : m' = m := by
  rw [calleeDepth, run_bind_ok rfl] at h
  dsimp only at h
  split at h
  · split at h
    · obtain ⟨e, m₁, hfail⟩ := raises_failAt (α := Nat) 1 (text "C stack overflow") run m
      cases hfail.symm.trans h
    · split at h
      · cases h
      · cases h
        rfl
  · cases h
    rfl

/-- The first activation of a call: the parameters are in the first slots. -/
def entered (g : FunctionRef) (p : Proto) (captured : Array CellRef) (args : List Value) :
    Activation where
  function := g
  proto := p
  captured
  pc := 0
  slots := ((args.take p.signature.params).map Slot.value).toArray ++
    Array.replicate (p.signature.slots - (args.take p.signature.params).length) (Slot.value .nil)
  varargs := if p.signature.variadic then args.drop p.signature.params else []
  stack := []
  spread := 0
  await := .nothing

section

variable {g : FunctionRef} {p : Proto} {captured : Array CellRef} {args : List Value} {depth : Nat}

theorem run_enterGuest (hroom : m.used + (p.signature.slots + 8) ≤ Machine.maxUsed) :
    (enterGuest g p captured args depth).run run m = (.ok (), { m with
      frames := ⟨.guest (entered g p captured args), depth, m.used + (p.signature.slots + 8)⟩ ::
        m.frames
      control := .run }) := by
  simp only [enterGuest]
  rw [run_bind_ok rfl, if_neg (Nat.not_lt.2 hroom)]
  rfl

theorem enterGuest_ok (h : (enterGuest g p captured args depth).run run m = (.ok (), m')) :
    m' = { m with
      frames := ⟨.guest (entered g p captured args), depth, m.used + (p.signature.slots + 8)⟩ ::
        m.frames
      control := .run } := by
  by_cases hroom : m.used + (p.signature.slots + 8) ≤ Machine.maxUsed
  · cases (run_enterGuest hroom).symm.trans h
    rfl
  · simp only [enterGuest] at h
    rw [run_bind_ok rfl, if_pos (Nat.not_le.1 hroom)] at h
    obtain ⟨_, _, hfail, _⟩ := of_run_bind h
    obtain ⟨e, m₁, hraise⟩ := raises_failAt (α := Unit) 1 (text "stack overflow") run m
    cases hraise.symm.trans hfail

theorem run_callFunction (hg : m.heap.function g = .guest p captured)
    (hroom : m.used + (p.signature.slots + 8) ≤ Machine.maxUsed) :
    (callFunction g args none).run run m = (.ok (), { m with
      frames := ⟨.guest (entered g p captured args), m.depth, m.used + (p.signature.slots + 8)⟩ ::
        m.frames
      control := .run }) := by
  have hdepth : (calleeDepth none).run run m = (.ok m.depth, m) := rfl
  rw [callFunction, run_bind_ok hdepth, run_bind_heap, hg]
  exact run_enterGuest hroom

end

section

variable {a : Activation} {stack : List Value} {x y : Value} {b : Bool}
  {origin : Side → Option Origin}

theorem run_binary_eq (h : m.heap.equal x y = .done b) :
    (binary a stack .eq x y origin).run run m =
      (setTop { a with stack := .boolean b :: stack }).run run m := by
  rw [binary, run_bind_heap]
  simp only [h, finishTest, pushValue, Bool.bne_false]

theorem run_binary_ne (h : m.heap.equal x y = .done b) :
    (binary a stack .ne x y origin).run run m =
      (setTop { a with stack := .boolean (!b) :: stack }).run run m := by
  rw [binary, run_bind_heap]
  simp only [h, finishTest, pushValue, Bool.bne_true]

theorem run_binary_concat (s t : Text) :
    (binary a stack .concat (.string s) (.string t) origin).run run m =
      (setTop { a with stack := .string (s ++ t) :: stack }).run run m := rfl

end

theorem run_call_builtin {b : Builtin} {g : FunctionRef} {args : List Value} {kind : String}
    {name : Text} (hg : m.heap.function g = .builtin b) (hkind : kind ≠ "metamethod")
    (hb : ∀ c, callBuiltin b c = b.perform c >>= deliver) :
    (call (.function g) args (some ⟨kind, name⟩)).run run m =
      (b.perform ⟨args, g, some ⟨kind, name⟩⟩ >>= deliver).run run m := by
  rw [call, run_bind_ok rfl]
  change (callFunction g args (some ⟨kind, name⟩)).run run m = _
  rw [callFunction, run_bind_ok (run_calleeDepth name hkind),
    run_bind_heap]
  simp only [hg, hb]

end Step

namespace Machine

variable {run : Machine → Machine} {m : Machine} {below : List Frame}

/-- The machine after an action that a step carried out. -/
def settled : Except Value Unit × Machine → Machine
  | (.ok _, m) => m
  | (.error e, m) => m.unwind e

/-- The machine carries out the next instruction of the top frame, unless the look at the stop flag
raises an error. -/
theorem advance_guest {a : Activation} {i : Instr} {depth used : Nat} (hcontrol : m.control = .run)
    (hframes : m.frames = ⟨.guest a, depth, used⟩ :: below) (hi : a.proto.code[a.pc]? = some i) :
    (∃ e m', Step.watch.run run m = (.error e, m') ∧ advance run m = m'.unwind e) ∨
      ∃ m₁ : Machine, m₁.heap = m.heap ∧ m₁.control = .run ∧
        m₁.frames = ⟨.guest { a with pc := a.pc + 1 }, depth, used⟩ :: below ∧
        advance run m = settled ((Step.instruction { a with pc := a.pc + 1 } i).run run m₁) := by
  have hadvance : advance run m = settled ((Step.watch >>= fun _ => Step.step).run run m) := rfl
  rcases Step.run_watch run m with ⟨e, m', hwatch⟩ | ⟨countdown, stop, hwatch⟩
  · rw [hadvance, Action.run_bind_error hwatch]
    exact .inl ⟨e, m', hwatch, rfl⟩
  · refine .inr ⟨{ m with
      countdown
      host := { m.host with stop }
      frames := ⟨.guest { a with pc := a.pc + 1 }, depth, used⟩ :: below }, rfl, hcontrol, rfl, ?_⟩
    rw [hadvance, Action.run_bind_ok hwatch, Step.step, Action.run_bind_ok rfl]
    dsimp only
    rw [hcontrol]
    exact congrArg settled (Step.run_execute hframes hi)

/-- Within so many steps the machine comes to where `P` holds, whatever runs nested calls. -/
inductive Leads (P : Machine → Prop) : Nat → Machine → Prop
  | done {n : Nat} {m : Machine} : P m → Leads P n m
  | step {n : Nat} {m : Machine} : m.control = .run → (∀ run, Leads P n (advance run m)) →
      Leads P (n + 1) m

theorem Leads.exists_run {P : Machine → Prop} {n fuel : Nat} (h : Leads P n m) (hfuel : n ≤ fuel) :
    ∃ left m', Machine.run fuel m = Machine.run left m' ∧ P m' := by
  induction h generalizing fuel with
  | done hp => exact ⟨fuel, _, rfl, hp⟩
  | @step n m hcontrol _ ih =>
    obtain ⟨fuel, rfl⟩ := Nat.exists_eq_add_of_lt hfuel
    rw [Machine.run, hcontrol]
    exact ih _ (Nat.le_add_right n fuel)

end Machine

end Grapnel
