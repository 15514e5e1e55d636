import Grapnel.Task.Scheduler
import Mathlib

namespace Grapnel

variable {Thread Function Value : Type}

namespace Task

/-- The task as it was before any cancelling. -/
def live (t : Task Thread Function Value) : Task Thread Function Value :=
  { t with cancelled := false }

theorem live_of_not_cancelled {t : Task Thread Function Value} (h : t.cancelled = false) :
    t.live = t := by
  cases t
  cases h
  rfl

end Task

namespace Scheduler

inductive Request (Thread Function Value : Type) where
  | schedule (kind : Task.Kind) (body : Task.Body Thread Function) (args : List Value)
    (now delay : Nat)
  | cancel (id : TaskId)

variable {s : Scheduler Thread Function Value} {t : Task Thread Function Value} {id : TaskId}
  {ts : List (Task Thread Function Value)} {r : Request Thread Function Value}
  {rs : List (Request Thread Function Value)}

def grant (s : Scheduler Thread Function Value) :
    Request Thread Function Value → Scheduler Thread Function Value
  | .schedule kind body args now delay => (s.schedule kind body args now delay).2
  | .cancel id => (s.cancel id).2

def grantAll (s : Scheduler Thread Function Value) :
    List (Request Thread Function Value) → Scheduler Thread Function Value
  | [] => s
  | r :: rs => (s.grant r).grantAll rs

/-- The task that a request schedules under a number. -/
def Request.task? (n : Nat) : Request Thread Function Value → Option (Task Thread Function Value)
  | .schedule kind body args now delay => some ⟨⟨n⟩, kind, body, args, now, now + delay, false⟩
  | .cancel _ => none

/-- The tasks that requests schedule when the next number is `n`. -/
def scheduledBy (n : Nat) :
    List (Request Thread Function Value) → List (Task Thread Function Value)
  | [] => []
  | r :: rs =>
    match r.task? n with
    | some t => t :: scheduledBy (n + 1) rs
    | none => scheduledBy n rs

theorem live_cancelIn (id : TaskId) (ts : List (Task Thread Function Value)) :
    (cancelIn id ts).2.map Task.live = ts.map Task.live := by
  induction ts with
  | nil => rfl
  | cons t ts ih =>
    rw [cancelIn]
    split
    · rfl
    · simp only [List.map_cons, ih]

theorem cancelIn_found :
    (cancelIn id ts).1 = true ↔ ∃ t ∈ ts, t.id = id ∧ t.cancelled = false := by
  induction ts with
  | nil => simp [cancelIn]
  | cons t ts ih =>
    rw [cancelIn]
    split
    · next h => exact ⟨fun _ => ⟨t, List.mem_cons_self, h⟩, fun _ => rfl⟩
    · next h =>
      refine ih.trans ⟨?_, ?_⟩
      · rintro ⟨u, hu, hx⟩
        exact ⟨u, List.mem_cons_of_mem _ hu, hx⟩
      · rintro ⟨u, hu, hx⟩
        rcases List.mem_cons.1 hu with rfl | hu
        · exact absurd hx h
        · exact ⟨u, hu, hx⟩

theorem cancelIn_not_found (h : (cancelIn id ts).1 = false) : (cancelIn id ts).2 = ts := by
  induction ts with
  | nil => rfl
  | cons t ts ih =>
    rw [cancelIn] at h ⊢
    split at h
    · cases h
    · next hn => simp only [if_neg hn, ih h]

theorem mem_cancelIn (h : t ∈ (cancelIn id ts).2) :
    t ∈ ts ∨ t.id = id ∧ t.cancelled = true := by
  induction ts with
  | nil => exact .inl h
  | cons u ts ih =>
    rw [cancelIn] at h
    split at h
    · next hu =>
      rcases List.mem_cons.1 h with rfl | h
      · exact .inr ⟨hu.1, rfl⟩
      · exact .inl (List.mem_cons_of_mem _ h)
    · rcases List.mem_cons.1 h with rfl | h
      · exact .inl List.mem_cons_self
      · exact (ih h).imp_left (List.mem_cons_of_mem _)

theorem mem_grantAll (h : t ∈ (s.grantAll rs).tasks) (hc : t.cancelled = true) :
    t ∈ s.tasks ∨ .cancel t.id ∈ rs := by
  induction rs generalizing s with
  | nil => exact .inl h
  | cons r rs ih =>
    rcases ih h with h | h
    · cases r with
      | schedule =>
        rcases List.mem_append.1 h with h | h
        · exact .inl h
        · cases List.mem_singleton.1 h
          cases hc
      | cancel id =>
        refine (mem_cancelIn h).imp_right fun hid => ?_
        cases hid.1
        exact List.mem_cons_self
    · exact .inr (List.mem_cons_of_mem _ h)

@[simp] theorem ready_grant : (s.grant r).ready = s.ready := by cases r <;> rfl

@[simp] theorem running_grant : (s.grant r).running = s.running := by cases r <;> rfl

theorem nextId_le_grant : s.nextId ≤ (s.grant r).nextId := by
  cases r with
  | schedule => exact Nat.le_succ _
  | cancel => exact Nat.le_refl _

@[simp] theorem ready_grantAll : (s.grantAll rs).ready = s.ready := by
  induction rs generalizing s with
  | nil => rfl
  | cons r rs ih => rw [grantAll, ih, ready_grant]

@[simp] theorem running_grantAll : (s.grantAll rs).running = s.running := by
  induction rs generalizing s with
  | nil => rfl
  | cons r rs ih => rw [grantAll, ih, running_grant]

theorem live_grant (s : Scheduler Thread Function Value) (r : Request Thread Function Value) :
    (s.grant r).tasks.map Task.live = s.tasks.map Task.live ++ (r.task? s.nextId).toList := by
  cases r with
  | schedule => exact List.map_append
  | cancel id => exact (live_cancelIn id s.tasks).trans (List.append_nil _).symm

/-- Requests leave the tasks in their order, apart from cancelling, and append those that they
schedule. -/
theorem live_grantAll (s : Scheduler Thread Function Value)
    (rs : List (Request Thread Function Value)) :
    (s.grantAll rs).tasks.map Task.live =
      s.tasks.map Task.live ++ scheduledBy s.nextId rs := by
  induction rs generalizing s with
  | nil => rw [scheduledBy, List.append_nil, grantAll]
  | cons r rs ih =>
    rw [grantAll, ih, live_grant, List.append_assoc]
    cases r <;> rfl

end Scheduler

end Grapnel
