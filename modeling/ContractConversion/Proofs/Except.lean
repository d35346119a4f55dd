import Mathlib.Tactic.Lemma

/-!
# Computations that may fail

What a computation in `Except` consists of if it succeeds, and where it fails.
-/

namespace ContractConversion

lemma ok_bind {ε α β : Type} (a : α) (f : α → Except ε β) : Except.ok a >>= f = f a := rfl

lemma error_bind {ε α β : Type} (fault : ε) (f : α → Except ε β) :
    Except.error fault >>= f = .error fault := rfl

/-- A sequence of two steps succeeds exactly if both do. -/
lemma bind_eq_ok {ε α β : Type} {x : Except ε α} {f : α → Except ε β} {b : β} :
    x >>= f = .ok b ↔ ∃ a, x = .ok a ∧ f a = .ok b := by
  cases x <;> simp [bind, Except.bind]

/-- It fails exactly if one of them does. -/
lemma bind_eq_error {ε α β : Type} {x : Except ε α} {f : α → Except ε β} {fault : ε} :
    x >>= f = .error fault ↔ x = .error fault ∨ ∃ a, x = .ok a ∧ f a = .error fault := by
  cases x <;> simp [bind, Except.bind]

lemma mapError_eq_error {ε ε' α : Type} {x : Except ε α} {f : ε → ε'} {fault : ε'} :
    x.mapError f = .error fault ↔ ∃ cause, x = .error cause ∧ f cause = fault := by
  cases x with
  | error cause =>
    refine ⟨fun h => ⟨cause, rfl, Except.error.inj h⟩, ?_⟩
    rintro ⟨_, hcause, rfl⟩
    rw [← Except.error.inj hcause]
    rfl
  | ok a =>
    refine ⟨fun h => ?_, ?_⟩
    · cases h
    · rintro ⟨_, h, -⟩
      cases h

lemma map_eq_ok {ε α β : Type} {x : Except ε α} {f : α → β} {b : β} :
    x.map f = .ok b ↔ ∃ a, x = .ok a ∧ f a = b := by
  cases x <;> simp [Except.map]

lemma map_eq_error {ε α β : Type} {x : Except ε α} {f : α → β} {fault : ε} :
    x.map f = .error fault ↔ x = .error fault := by
  cases x <;> simp [Except.map]

lemma ok_of_mapError {ε ε' α : Type} {x : Except ε α} {f : ε → ε'} {a : α}
    (h : x.mapError f = .ok a) : x = .ok a := by
  cases x with
  | error fault => cases h
  | ok b =>
    cases h
    rfl

lemma throw_ne_ok {ε α : Type} {fault : ε} {a : α} : (throw fault : Except ε α) ≠ .ok a := by
  intro h
  cases h

end ContractConversion
