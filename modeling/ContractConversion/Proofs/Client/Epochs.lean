import ContractConversion.Client.Conversion
import ContractConversion.Proofs.Client.Store
import Mathlib.Data.List.DropRight

/-!
# One conversion after the other

A client starts conversions and gives them up, and streams of older conversions may still hand over
events at any time. An `Act` is one of these, in whatever order they come. The store is always that
of the last conversion, with the events that came under its epoch since (`Client.store_after`).
-/

namespace ContractConversion
namespace Client

/-- What happens at a client. -/
inductive Act where
  | start
  | cancel
  /-- A stream hands over an event under the epoch of its conversion. -/
  | deliver (epoch : ℕ) (event : Event)
  deriving DecidableEq

/-- The event, if it is handed over under the epoch. -/
def Act.eventOf? (epoch : ℕ) : Act → Option Event
  | .deliver tag event => if tag = epoch then some event else none
  | _ => none

/-- The client after an act, and whether its subscribers are told that the store was modified. -/
def act (c : Client) : Act → Client × Bool
  | .start => (c.start, true)
  | .cancel => (c.cancel, false)
  | .deliver epoch event => c.deliver epoch event

/-- The client after acts, in order. -/
def after (c : Client) (acts : List Act) : Client :=
  acts.foldl (fun c a => (c.act a).1) c

@[simp] lemma after_concat (c : Client) (acts : List Act) (a : Act) :
    c.after (acts ++ [a]) = ((c.after acts).act a).1 := by
  rw [after, List.foldl_concat, ← after]

/-- The events that came under an epoch since the last start. -/
def eventsUnder (epoch : ℕ) (acts : List Act) : List Event :=
  (acts.rtakeWhile (· ≠ .start)).filterMap (Act.eventOf? epoch)

lemma eventsUnder_start (epoch : ℕ) (acts : List Act) :
    eventsUnder epoch (acts ++ [.start]) = [] := by
  rw [eventsUnder, List.rtakeWhile_concat_neg _ _ _ (by simp)]
  rfl

/-- An act that starts nothing adds the event that it hands over, if it is one of this epoch. -/
lemma eventsUnder_concat {epoch : ℕ} {acts : List Act} {a : Act} (h : a ≠ .start) :
    eventsUnder epoch (acts ++ [a]) = eventsUnder epoch acts ++ (a.eventOf? epoch).toList := by
  rw [eventsUnder, List.rtakeWhile_concat_pos _ _ _ (by simpa using h), List.filterMap_append]
  rfl

/-! ## One act -/

variable {c : Client}

/-- An event that comes under another epoch is dropped. -/
lemma deliver_of_ne {epoch : ℕ} (h : epoch ≠ c.store.epoch) (event : Event) :
    c.deliver epoch event = (c, false) := by
  rw [deliver, if_neg fun hboth => h hboth.1.symm]

/-- An event that comes under the epoch of the store is taken in. -/
lemma store_deliver (event : Event) :
    (c.deliver c.store.epoch event).1.store = c.store.apply event := by
  rw [deliver, Store.apply]
  cases c.store.isFinished <;> simp

/-- An act that starts nothing adds the event that it hands over under the epoch of the store. -/
lemma store_act {a : Act} (ha : a ≠ .start) :
    (c.act a).1.store = c.store.applyAll (a.eventOf? c.store.epoch).toList := by
  cases a with
  | start => exact absurd rfl ha
  | cancel => rfl
  | deliver epoch event =>
    rw [act, Act.eventOf?]
    by_cases hsame : epoch = c.store.epoch
    · rw [if_pos hsame, hsame, store_deliver]
      rfl
    · rw [if_neg hsame, deliver_of_ne hsame]
      rfl

/-- What the subscribers are not told of has changed nothing. -/
lemma store_of_untold {a : Act} (h : (c.act a).2 = false) : (c.act a).1.store = c.store := by
  cases a with
  | start => cases h
  | cancel => rfl
  | deliver epoch event =>
    rw [act, deliver] at h ⊢
    split at h
    · cases h
    · next hdropped => rw [if_neg hdropped]

/-! ## A client at work -/

/-- The store of a conversion stays under its epoch. -/
lemma epoch_applyAll (s : Store) (events : List Event) : (s.applyAll events).epoch = s.epoch := by
  induction events using List.reverseRecOn with
  | nil => rfl
  | append_singleton events event ih =>
    rw [Store.applyAll_concat, Store.apply, ← ih]
    split
    · rfl
    · cases event <;> rfl

/-- After any acts the store is that of the last conversion. -/
lemma store_eq (address : String) (acts : List Act) :
    ((new address).after acts).store =
      (Store.forEpoch (acts.count .start)).applyAll (eventsUnder (acts.count .start) acts) := by
  induction acts using List.reverseRecOn with
  | nil => rfl
  | append_singleton acts a ih =>
    have hepoch : ((new address).after acts).store.epoch = acts.count .start := by
      rw [ih, epoch_applyAll]
      rfl
    rw [after_concat, List.count_append]
    by_cases ha : a = .start
    · subst ha
      rw [eventsUnder_start, List.count_singleton_self, ← hepoch]
      rfl
    · rw [store_act ha, hepoch, ih, List.count_singleton, if_neg (by simpa using ha),
        Nat.add_zero, eventsUnder_concat ha, Store.applyAll, Store.applyAll, Store.applyAll,
        List.foldl_append]

/-- **The store of a client is that of its last conversion.** Whatever is started and given up, and
whenever streams of this or of older conversions hand over their events, the epoch counts the
starts, and the store is a fresh one of this epoch that has taken in, in order, the events that
came under it since the last start. Giving up a conversion and an event of another one change
nothing, and the subscribers are told nothing; what they are not told never changes the store. -/
theorem store_after (address : String) (acts : List Act) :
    let c := (new address).after acts
    let epoch := acts.count .start
    c.store.epoch = epoch ∧
      c.store = (Store.forEpoch epoch).applyAll (eventsUnder epoch acts) ∧
      (∀ a, (a = .cancel ∨ ∃ tag event, a = .deliver tag event ∧ tag ≠ epoch) →
        (c.act a).1.store = c.store ∧ (c.act a).2 = false) ∧
      ∀ a, (c.act a).2 = false → (c.act a).1.store = c.store := by
  intro c epoch
  have hstore : c.store = (Store.forEpoch epoch).applyAll (eventsUnder epoch acts) :=
    store_eq address acts
  have hepoch : c.store.epoch = epoch := by
    rw [hstore, epoch_applyAll]
    rfl
  refine ⟨hepoch, hstore, fun a ha => ?_, fun a => store_of_untold⟩
  have huntold : (c.act a).2 = false := by
    rcases ha with rfl | ⟨tag, event, rfl, hother⟩
    · rfl
    · rw [act, deliver_of_ne (hepoch ▸ hother)]
  exact ⟨store_of_untold huntold, huntold⟩

end Client
end ContractConversion
