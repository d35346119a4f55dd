import Mathlib.Tactic.Lemma

/-!
# Procedures that edit a state

A procedure that edits a state where it stands may break off with a fault. What it has written by
then stays written, so whether it leaves the state whole depends on where its writes stand. It
`CarriesOut` a function on states if it does what the function says all at once: the whole change,
or the fault and no change.
-/

namespace ContractConversion

/-- A procedure on a state that may break off. -/
abbrev Editing (ε σ α : Type) : Type :=
  ExceptT ε (StateM σ) α

namespace Editing

variable {ε σ α β : Type}

/-- How the procedure ends on a state, and what it leaves of the state. -/
def perform (e : Editing ε σ α) (s : σ) : Except ε α × σ :=
  (ExceptT.run e).run s

@[simp] lemma perform_pure (a : α) (s : σ) : perform (pure a : Editing ε σ α) s = (.ok a, s) := rfl

@[simp] lemma perform_throw (fault : ε) (s : σ) :
    perform (throw fault : Editing ε σ α) s = (.error fault, s) := rfl

@[simp] lemma perform_get (s : σ) : perform (get : Editing ε σ σ) s = (.ok s, s) := rfl

@[simp] lemma perform_modify (f : σ → σ) (s : σ) :
    perform (modify f : Editing ε σ Unit) s = (.ok (), f s) := rfl

@[simp] lemma perform_ofExcept (x : Except ε α) (s : σ) :
    perform (ofExcept x : Editing ε σ α) s = (x, s) := by
  cases x <;> rfl

/-- The second of two steps starts from what the first one leaves, if that does not break off. -/
@[simp] lemma perform_bind (e : Editing ε σ α) (next : α → Editing ε σ β) (s : σ) :
    perform (e >>= next) s =
      match perform e s with
      | (.ok a, s') => perform (next a) s'
      | (.error fault, s') => (.error fault, s') := by
  have hbind : perform (e >>= next) s =
      (ExceptT.bindCont next (perform e s).1).run (perform e s).2 := rfl
  rw [hbind]
  rcases perform e s with ⟨fault | a, s'⟩ <;> rfl

/-- On this state the procedure does what the function says: the whole change, or the fault and no
change. -/
def CarriesOut (e : Editing ε σ Unit) (f : σ → Except ε σ) (s : σ) : Prop :=
  perform e s =
    match f s with
    | .ok s' => (.ok (), s')
    | .error fault => (.error fault, s)

section CarriesOut

variable {e : Editing ε σ Unit} {f : σ → Except ε σ} {s s' : σ} {fault : ε}

lemma CarriesOut.of_ok (h : CarriesOut e f s) (hf : f s = .ok s') : perform e s = (.ok (), s') := by
  rw [CarriesOut, hf] at h
  exact h

lemma CarriesOut.of_error (h : CarriesOut e f s) (hf : f s = .error fault) :
    perform e s = (.error fault, s) := by
  rw [CarriesOut, hf] at h
  exact h

end CarriesOut

end Editing

end ContractConversion
