import ContractConversion.Client.Store
import ContractConversion.Proofs.Session.Reports

/-!
# What a store knows of a stream

As long as no terminal event has come, a store shows what the events tell: the identifier, the
attempt, the plan and the announced artifacts, in the order of their announcement
(`Store.shows_applyAll`). Artifacts that it has already change nothing when they come again in a
result (`Store.foldl_upsert_of_subset`).
-/

namespace ContractConversion
namespace Store

/-! ## Putting artifacts in -/

section

variable {a : Artifact} {contracts : List Artifact}

/-- An artifact of a new name goes to the end. -/
lemma upsert_of_new (h : a.name ∉ Repair.names contracts) :
    upsert a contracts = contracts ++ [a] := by
  induction contracts with
  | nil => rfl
  | cons b rest ih =>
    rw [Repair.names_cons, List.mem_cons, not_or] at h
    rw [upsert, if_neg (Ne.symm h.1), ih h.2, List.cons_append]

/-- An artifact that is there stays in its place. -/
lemma upsert_of_mem (hnodup : (Repair.names contracts).Nodup) (ha : a ∈ contracts) :
    upsert a contracts = contracts := by
  induction contracts with
  | nil => exact absurd ha List.not_mem_nil
  | cons b rest ih =>
    rw [Repair.names_cons, List.nodup_cons] at hnodup
    rcases List.mem_cons.mp ha with rfl | ha
    · rw [upsert, if_pos rfl]
    · -- the head has another name, because the name of the artifact is among the rest
      have hne : b.name ≠ a.name := fun heq => hnodup.1 (heq ▸ List.mem_map_of_mem ha)
      rw [upsert, if_neg hne, ih hnodup.2 ha]

/-- Artifacts that are there all stay in their places. -/
lemma foldl_upsert_of_subset {artifacts : List Artifact}
    (hnodup : (Repair.names contracts).Nodup) (h : ∀ a ∈ artifacts, a ∈ contracts) :
    artifacts.foldl (fun contracts a => upsert a contracts) contracts = contracts := by
  induction artifacts with
  | nil => rfl
  | cons a rest ih =>
    rw [List.foldl_cons, upsert_of_mem hnodup (h a List.mem_cons_self)]
    exact ih fun b hb => h b (List.mem_cons_of_mem _ hb)

end

/-! ## Taking events in -/

@[simp] lemma applyAll_concat (s : Store) (events : List Event) (event : Event) :
    s.applyAll (events ++ [event]) = (s.applyAll events).apply event := by
  rw [applyAll, List.foldl_concat, ← applyAll]

/-- A store that is not finished takes in what comes. -/
lemma apply_of_unfinished {s : Store} (h : s.isFinished = false) (event : Event) :
    s.apply event = s.advance event := by
  rw [apply, h]
  rfl

/-- The store is not finished and shows what the events tell. -/
structure Shows (s : Store) (events : List Event) : Prop where
  unfinished : s.isFinished = false
  sessionId : s.sessionId = sessionIdIn events
  attempt : s.attempt = attemptIn events
  planned : s.planned = (planIn events).contracts
  transactions : s.transactions = (planIn events).transactions
  contracts : s.contracts = announcedIn events

lemma shows_forEpoch (epoch : ℕ) : (forEpoch epoch).Shows [] :=
  ⟨rfl, rfl, rfl, rfl, rfl, rfl⟩

/-- A further event that is not terminal; what it announces has a new name. -/
lemma Shows.apply {s : Store} {events : List Event} {event : Event} (h : s.Shows events)
    (hevent : event.isTerminal = false)
    (hnew : ∀ a, event.announced? = some a → a.name ∉ Repair.names (announcedIn events)) :
    (s.apply event).Shows (events ++ [event]) := by
  obtain ⟨hunfinished, hid, hattempt, hplanned, htransactions, hcontracts⟩ := h
  have happly := apply_of_unfinished hunfinished event
  cases event with
  | artifactReady a =>
    rw [happly, advance, hcontracts, upsert_of_new (hnew a rfl)]
    refine ⟨hunfinished, ?_, ?_, ?_, ?_, ?_⟩
    · rwa [sessionIdIn_concat]
    · rwa [attemptIn_concat]
    · rwa [planIn_concat]
    · rwa [planIn_concat]
    · rw [announcedIn_concat]
      rfl
  | done result => exact absurd hevent (by simp [Event.isTerminal])
  | error message phase detail => exact absurd hevent (by simp [Event.isTerminal])
  | _ =>
    rw [happly, advance]
    constructor <;>
      simp_all [Event.sessionId?, Event.attempt?, Event.plan?, Event.announced?, isFinished,
        Status.isTerminal]

/-- **As long as no terminal event has come, a store shows what the events tell**, if no name is
announced twice. -/
theorem shows_applyAll (epoch : ℕ) {events : List Event}
    (hevents : ∀ event ∈ events, event.isTerminal = false)
    (hnodup : (Repair.names (announcedIn events)).Nodup) :
    ((forEpoch epoch).applyAll events).Shows events := by
  induction events using List.reverseRecOn with
  | nil => exact shows_forEpoch epoch
  | append_singleton events event ih =>
    rw [announcedIn_concat, Repair.names, List.map_append] at hnodup
    obtain ⟨hbefore, -, hdisjoint⟩ := List.nodup_append'.mp hnodup
    rw [applyAll_concat]
    refine (ih (fun e he => hevents e (List.mem_append_left _ he)) hbefore).apply
      (hevents event (List.mem_append_right _ List.mem_cons_self)) fun a ha hmem => ?_
    exact hdisjoint hmem (by simp [ha])

end Store
end ContractConversion
