import Mathlib

namespace Grapnel

variable {α β ε : Type} {f : α → Except ε β} {l before after : List α} {r : List β} {a : α} {e : ε}

theorem mapM_ok_iff : l.mapM f = .ok r ↔ List.Forall₂ (fun a b => f a = .ok b) l r := by
  induction l generalizing r with
  | nil =>
    rw [List.forall₂_nil_left_iff]
    exact ⟨fun h => (Except.ok.inj h).symm, fun h => h ▸ rfl⟩
  | cons a l ih =>
    rw [List.mapM_cons]
    cases ha : f a with
    | error e =>
      constructor
      · intro h
        cases h
      · rintro (_ | ⟨hb, _⟩)
        cases ha.symm.trans hb
    | ok b =>
      rw [List.forall₂_cons_left_iff]
      cases hl : l.mapM f with
      | error e =>
        constructor
        · intro h
          cases h
        · rintro ⟨_, bs, _, hbs, _⟩
          cases hl.symm.trans (ih.2 hbs)
      | ok bs =>
        constructor
        · intro h
          cases h
          exact ⟨b, bs, ha, ih.1 hl, rfl⟩
        · rintro ⟨b', bs', hb, hbs, rfl⟩
          cases ha.symm.trans hb
          cases hl.symm.trans (ih.2 hbs)
          rfl

theorem mapM_ok {g : α → β} (h : ∀ a ∈ l, f a = .ok (g a)) : l.mapM f = .ok (l.map g) := by
  rw [mapM_ok_iff, List.forall₂_map_right_iff]
  exact List.forall₂_same.2 h

theorem exists_forall₂_iff {R : α → β → Prop} :
    (∃ r, List.Forall₂ R l r) ↔ ∀ a ∈ l, ∃ b, R a b := by
  induction l with
  | nil => exact ⟨fun _ a ha => absurd ha List.not_mem_nil, fun _ => ⟨[], .nil⟩⟩
  | cons a l ih =>
    rw [List.forall_mem_cons, ← ih]
    constructor
    · rintro ⟨_, _ | ⟨ha, hl⟩⟩
      exact ⟨⟨_, ha⟩, _, hl⟩
    · rintro ⟨⟨b, hb⟩, r, hr⟩
      exact ⟨b :: r, .cons hb hr⟩

theorem mapM_first_error (h : ∀ a ∈ before, ∃ b, f a = .ok b) (ha : f a = .error e) :
    (before ++ a :: after).mapM f = .error e := by
  obtain ⟨r, hr⟩ := exists_forall₂_iff.2 h
  rw [List.mapM_append, mapM_ok_iff.2 hr, List.mapM_cons, ha]
  rfl

/-- Either all elements have a property, or there is a first one that has not. -/
theorem all_or_first (P : α → Prop) (l : List α) :
    (∀ a ∈ l, P a) ∨ ∃ before a after, l = before ++ a :: after ∧ (∀ b ∈ before, P b) ∧ ¬ P a := by
  classical
  cases h : l.find? (fun a => ¬ P a) with
  | none => exact .inl fun a ha => by simpa using List.find?_eq_none.1 h a ha
  | some a =>
    obtain ⟨ha, before, after, rfl, hbefore⟩ := List.find?_eq_some_iff_append.1 h
    refine .inr ⟨before, a, after, rfl, ?_, by simpa using ha⟩
    intro b hb
    simpa using hbefore b hb

end Grapnel
