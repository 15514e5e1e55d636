import Grapnel.Proofs.Machine.Stepping

namespace Grapnel

open Guest

namespace Machine

/-- The machine in other surroundings. -/
def within (m : Machine) (host : Host) (workspace : Workspace) : Machine :=
  { m with host, workspace }

theorem within_heap (m : Machine) (host : Host) (workspace : Workspace) :
    (m.within host workspace).heap = m.heap := rfl

theorem within_control (m : Machine) (host : Host) (workspace : Workspace) :
    (m.within host workspace).control = m.control := rfl

end Machine

namespace Guest.Attempt

variable {α : Type}

def isDone : Attempt α → Bool
  | .done _ => true
  | _ => false

theorem exists_of_isDone {attempt : Attempt α} (h : attempt.isDone = true) :
    ∃ a, attempt = .done a := by
  cases attempt with
  | done a => exact ⟨a, rfl⟩
  | call => cases h
  | fault => cases h

end Guest.Attempt

namespace Action

variable {α β : Type}

/-- The surroundings have no part in what the action does, nor has what a nested call does. -/
def Blind (x : Action α) : Prop :=
  ∀ (run : Machine → Machine) (m : Machine) (host : Host) (workspace : Workspace),
    x.run run (m.within host workspace) =
      ((x.run id m).1, (x.run id m).2.within host workspace)

theorem blind_pure (a : α) : Blind (pure a) := fun _ _ _ _ => rfl

theorem blind_bind {x : Action α} {f : α → Action β} (hx : Blind x) (hf : ∀ a, Blind (f a)) :
    Blind (x >>= f) := by
  intro run m host workspace
  rw [run_bind, run_bind, hx]
  cases x.run id m with
  | mk result m' =>
    cases result with
    | ok a => exact hf a run m' host workspace
    | error e => rfl

theorem blind_modifyHeap (f : Heap → Heap) : Blind (modifyHeap f) := fun _ _ _ _ => rfl

theorem blind_onHeap (f : Heap → α × Heap) : Blind (onHeap f) := fun _ _ _ _ => rfl

theorem blind_newTable (t : Table) : Blind (newTable t) := fun _ _ _ _ => rfl

theorem blind_newFunction (f : Function) : Blind (newFunction f) := fun _ _ _ _ => rfl

end Action

namespace Step

open Grapnel.Action

variable (a : Activation)

theorem blind_setTop : Blind (setTop a) := by
  intro run m host workspace
  obtain ⟨heap, globals, libraries, natives, thread, frames, baseDepth, control⟩ := m
  cases frames with
  | nil => rfl
  | cons f frames => rfl

theorem blind_pushValue (stack : List Value) (v : Value) : Blind (pushValue a stack v) :=
  blind_setTop _

theorem blind_storeSlot (i : Nat) (v : Value) : Blind (storeSlot a i v) := by
  unfold storeSlot
  split
  · exact blind_setTop _
  · exact blind_bind (blind_setTop _) fun _ => blind_modifyHeap _

theorem blind_cellOf (i : Nat) : Blind (cellOf a i) := by
  unfold cellOf
  split
  · exact blind_pure _
  · exact blind_bind (blind_onHeap _) fun _ => blind_pure _

theorem blind_capture (ks : List Capture) : Blind (capture a ks) := by
  induction ks generalizing a with
  | nil => exact blind_pure _
  | cons k ks ih =>
    rw [capture]
    split
    · exact blind_bind (blind_cellOf a _) fun p => blind_bind (ih p.2) fun _ => blind_pure _
    · exact blind_bind (blind_pure _) fun p => blind_bind (ih p.2) fun _ => blind_pure _

theorem blind_leave (results : List Value) : Blind (leave results) := fun _ _ _ _ => rfl

/-- The instruction is one of those that the machine carries out without a call, and does not fail. -/
def isQuiet (heap : Heap) : Instr → Bool
  | .push _ => true
  | .loadSlot _ => true
  | .storeSlot _ => true
  | .bind .. => true
  | .varargs _ => true
  | .newTable _ => true
  | .closure _ => true
  | .ret .. => true
  | .getIndex object key _ =>
    let found := operand heap a a.stack key
    (heap.index (operand heap a found.2 object).1 found.1).isDone
  | .setIndex object key depth _ =>
    let found := operand heap a (a.stack.tail.drop depth) key
    (heap.assign (operand heap a found.2 object).1 found.1 (a.stack.headD .nil)).isDone
  | .setField =>
    match a.stack with
    | _ :: key :: .table t :: _ => (Heap.rawPlace t key).isDone
    | _ => false
  | _ => false

theorem exists_of_isQuiet_setField {heap : Heap} (h : isQuiet a heap .setField = true) :
    ∃ value key t rest place,
      a.stack = value :: key :: .table t :: rest ∧ Heap.rawPlace t key = .done place := by
  rw [isQuiet] at h
  split at h
  · next value key t rest hstack =>
    obtain ⟨place, hplace⟩ := Attempt.exists_of_isDone h
    exact ⟨value, key, t, rest, place, hstack, hplace⟩
  · cases h

theorem instruction_within {m : Machine} {i : Instr} (h : isQuiet a m.heap i = true)
    (run : Machine → Machine) (host : Host) (workspace : Workspace) :
    (instruction a i).run run (m.within host workspace) =
      (((instruction a i).run id m).1, ((instruction a i).run id m).2.within host workspace) := by
  cases i with
  | push => exact blind_setTop _ run m host workspace
  | loadSlot => exact blind_pushValue _ _ _ run m host workspace
  | storeSlot => exact blind_storeSlot _ _ _ run m host workspace
  | bind => exact blind_setTop _ run m host workspace
  | varargs want =>
    cases want with
    | none => exact blind_setTop _ run m host workspace
    | some n => exact blind_setTop _ run m host workspace
  | newTable =>
    exact blind_bind (blind_newTable _) (fun _ => blind_pushValue _ _ _) run m host workspace
  | closure =>
    refine blind_bind (blind_capture a _) (fun p => ?_) run m host workspace
    exact blind_bind (blind_newFunction _) fun _ => blind_pushValue _ _ _
  | ret => exact blind_leave _ run m host workspace
  | getIndex object key origin =>
    rw [isQuiet] at h
    obtain ⟨v, hv⟩ := Attempt.exists_of_isDone h
    rw [instruction, run_bind_heap, run_bind_heap, Machine.within_heap]
    dsimp only
    rw [hv]
    exact blind_pushValue _ _ _ run m host workspace
  | setIndex object key depth origin =>
    rw [isQuiet] at h
    obtain ⟨place, hplace⟩ := Attempt.exists_of_isDone h
    rw [instruction, run_bind_heap, run_bind_heap, Machine.within_heap]
    dsimp only
    rw [hplace]
    exact blind_bind (blind_setTop _) (fun _ => blind_modifyHeap _) run m host workspace
  | setField =>
    obtain ⟨value, key, t, rest, place, hstack, hplace⟩ := exists_of_isQuiet_setField a h
    rw [instruction, hstack]
    dsimp only
    rw [hplace]
    exact blind_bind (blind_setTop _) (fun _ => blind_modifyHeap _) run m host workspace
  | _ => cases h

end Step

namespace Machine

variable {m m' : Machine} {n : Nat}

/-- The next step calls a guest function or is an instruction that is quiet, and nobody looks at the
stop flag. -/
def isQuiet (m : Machine) : Bool :=
  match m.countdown, m.control with
  | none, .run =>
    match m.frames with
    | ⟨.guest a, _, _⟩ :: _ =>
      (a.proto.code[a.pc]?).any (Step.isQuiet { a with pc := a.pc + 1 } m.heap)
    | _ => false
  | none, .call (.function f) _ none =>
    match m.heap.function f with
    | .guest p _ => m.used + (p.signature.slots + 8) ≤ maxUsed
    | _ => false
  | _, _ => false

theorem settled_within (r : Except Value Unit × Machine) (host : Host) (workspace : Workspace) :
    settled (r.1, r.2.within host workspace) = (settled r).within host workspace := by
  obtain ⟨result, m⟩ := r
  cases result <;> rfl

theorem advance_unwatched (hcountdown : m.countdown = none) (run : Machine → Machine) :
    advance run m = settled (Step.step.run run m) := by
  have hwatch : Step.watch.run run m = (.ok (), m) := by
    rw [Step.watch, Action.run_bind_ok rfl, hcountdown]
    rfl
  have hadvance : advance run m = settled ((Step.watch >>= fun _ => Step.step).run run m) := rfl
  rw [hadvance, Action.run_bind_ok hwatch]

theorem run_step_instruction {a : Activation} {i : Instr} {depth used : Nat} {below : List Frame}
    (hcontrol : m.control = .run) (hframes : m.frames = ⟨.guest a, depth, used⟩ :: below)
    (hi : a.proto.code[a.pc]? = some i) (run : Machine → Machine) :
    Step.step.run run m = (Step.instruction { a with pc := a.pc + 1 } i).run run
      { m with frames := ⟨.guest { a with pc := a.pc + 1 }, depth, used⟩ :: below } := by
  have hstep : Step.step.run run m = Step.execute.run run m := by
    rw [Step.step, Action.run_bind_ok rfl, hcontrol]
  rw [hstep, Step.run_execute hframes hi]

theorem run_step_call {f : FunctionRef} {p : Proto} {captured : Array CellRef} {args : List Value}
    (hcontrol : m.control = .call (.function f) args none)
    (hf : m.heap.function f = .guest p captured)
    (hroom : m.used + (p.signature.slots + 8) ≤ maxUsed) (run : Machine → Machine) :
    Step.step.run run m = (.ok (), { m with
      frames := ⟨.guest (Step.entered f p captured args), m.depth,
        m.used + (p.signature.slots + 8)⟩ :: m.frames
      control := .run }) := by
  have hstep : Step.step.run run m = (Step.callFunction f args none).run run m := by
    rw [Step.step, Action.run_bind_ok rfl, hcontrol]
    rfl
  rw [hstep, Step.run_callFunction hf hroom]

theorem run_step_within (h : m.isQuiet = true) (run : Machine → Machine) (host : Host)
    (workspace : Workspace) :
    Step.step.run run (m.within host workspace) =
      ((Step.step.run id m).1, (Step.step.run id m).2.within host workspace) := by
  rw [isQuiet] at h
  split at h
  · next hcontrol =>
    split at h
    · next a depth used below hframes =>
      obtain ⟨i, hi, hquiet⟩ := (Option.any_eq_true _ _).1 h
      rw [run_step_instruction hcontrol hframes hi,
        run_step_instruction (m := m.within host workspace) hcontrol hframes hi]
      exact Step.instruction_within
        (m := { m with frames := ⟨.guest { a with pc := a.pc + 1 }, depth, used⟩ :: below }) _ hquiet
        run host workspace
    · cases h
  · next hcontrol =>
    split at h
    · next hf =>
      have hroom := of_decide_eq_true h
      rw [run_step_call hcontrol hf hroom,
        run_step_call (m := m.within host workspace) hcontrol hf hroom]
      rfl
    · cases h
  · cases h

theorem countdown_of_isQuiet (h : m.isQuiet = true) : m.countdown = none := by
  rw [isQuiet] at h
  split at h
  · assumption
  · assumption
  · cases h

theorem run_within (h : m.isQuiet = true) (left : Nat) (host : Host) (workspace : Workspace) :
    Machine.run (left + 1) (m.within host workspace) =
      Machine.run left ((advance id m).within host workspace) := by
  have hcountdown := countdown_of_isQuiet h
  have hadvance : advance (Machine.run left) (m.within host workspace) =
      (advance id m).within host workspace := by
    rw [advance_unwatched hcountdown, advance_unwatched (m := m.within host workspace) hcountdown,
      run_step_within h, settled_within]
  rw [Machine.run, hadvance]
  split
  · next outcome hhalt =>
    rw [within_control] at hhalt
    rw [isQuiet, hcountdown, hhalt] at h
    cases h
  · rfl

/-- So many steps, if all of them are quiet. -/
def quietly : Nat → Machine → Option Machine
  | 0, m => some m
  | n + 1, m => if m.isQuiet then quietly n (advance id m) else none

/-- A machine that takes quiet steps takes them in any surroundings. -/
theorem run_quietly (h : quietly n m = some m') (left : Nat) (host : Host) (workspace : Workspace) :
    Machine.run (n + left) (m.within host workspace) = Machine.run left (m'.within host workspace) := by
  induction n generalizing m with
  | zero =>
    cases h
    rw [Nat.zero_add]
  | succ n ih =>
    rw [quietly] at h
    split at h
    · next hquiet =>
      rw [Nat.succ_add, run_within hquiet]
      exact ih h
    · cases h

end Machine

end Grapnel
