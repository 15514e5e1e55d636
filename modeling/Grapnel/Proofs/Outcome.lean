import Mathlib

namespace Grapnel

variable {ε ε' σ α β : Type} {s : σ}

def outcome (x : ExceptT ε (StateM σ) α) (s : σ) : Except ε α × σ := x.run.run s

theorem run_eq_outcome (x : ExceptT ε (StateM σ) α) (s : σ) : x.run s = outcome x s := rfl

theorem outcome_get : outcome (get : ExceptT ε (StateM σ) σ) s = (.ok s, s) := rfl

theorem outcome_lift (r : Except ε α) (s : σ) :
    outcome (liftM r : ExceptT ε (StateM σ) α) s = (r, s) := by cases r <;> rfl

theorem outcome_bind (x : ExceptT ε (StateM σ) α) (f : α → ExceptT ε (StateM σ) β) (s : σ) :
    outcome (x >>= f) s =
      match outcome x s with
      | (.ok a, s') => outcome (f a) s'
      | (.error e, s') => (.error e, s') := by
  rw [outcome, ExceptT.run_bind, StateT.run_bind, outcome]
  cases h : x.run.run s with
  | mk r s' => cases r <;> rfl

theorem outcome_map (f : α → β) (x : ExceptT ε (StateM σ) α) (s : σ) :
    outcome (f <$> x) s = ((outcome x s).1.map f, (outcome x s).2) := by
  rw [map_eq_pure_bind, outcome_bind]
  cases h : outcome x s with
  | mk r s' => cases r <;> rfl

theorem outcome_adapt (f : ε → ε') (x : ExceptT ε (StateM σ) α) (s : σ) :
    outcome (ExceptT.adapt f x) s = ((outcome x s).1.mapError f, (outcome x s).2) := rfl

theorem outcome_discard (x : ExceptT ε (StateM σ) α) (s : σ) :
    outcome (discard x) s = ((outcome x s).1.map fun _ => (), (outcome x s).2) := by
  change (x.run >>= fun r => match r with
    | .ok _ => pure (.ok ())
    | .error e => pure (.error e) : StateM σ (Except ε Unit)).run s = _
  rw [StateT.run_bind, outcome]
  cases h : x.run.run s with
  | mk r s' => cases r <;> rfl

end Grapnel
