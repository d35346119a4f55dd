import ContractConversion.Proofs.Client.Store
import ContractConversion.Proofs.Session.Announcements
import ContractConversion.Proofs.Session.Rest

/-!
# The reader's view agrees with the session

A store that takes in the events of a session knows what the session knows: it has the artifacts
that were announced, and at the end the result, or the error and what is still pending
(`Scene.store_of_reached`). What the result says of the session is what its events told on the way
(`Scene.Told`), because the state of a session agrees with its log.
-/

namespace ContractConversion
namespace Scene

variable {settings : Settings} {id : Uuid} {source : String} {σ : Scene}

/-! ## What the events tell -/

/-- An event that is terminal is the last one. -/
lemma events_of_isTerminal (h : Reached settings id source σ) {event : Event}
    (hevent : event ∈ σ.events) (hterminal : event.isTerminal = true) :
    σ.events = acceptedIn σ.steps ++ [event] := by
  obtain ⟨hplain, hevents | ⟨-, last, -, -, -, hevents⟩⟩ := events_of_reached h
  · rw [hevents] at hevent
    exact absurd (hplain event hevent) (by simp [hterminal])
  · rw [hevents] at hevent
    rcases List.mem_append.mp hevent with hevent | hevent
    · exact absurd (hplain event hevent) (by simp [hterminal])
    · rwa [List.mem_singleton.mp hevent]

lemma nodup_announcedIn (h : Reached settings id source σ) :
    (Repair.names (announcedIn (acceptedIn σ.steps))).Nodup :=
  (announcesFresh_of_reached h).nodup_announced

/-- What is announced is validated. -/
lemma validated_of_announced (h : Reached settings id source σ) {a : Artifact}
    (ha : a ∈ announcedIn (acceptedIn σ.steps)) : a.validated = true := by
  have halong : Along (fun _ event => ∀ a, event.announced? = some a → a.validated = true)
      σ.steps := by
    refine along_of_reached (fun _ event hplain a ha => ?_)
      (fun _ _ _ b _ _ _ hannounces a ha => ?_) h
    · exact absurd (hplain.1.symm.trans ha) (by simp)
    · obtain rfl := Option.some.inj ha
      exact hannounces.1
  obtain ⟨event, hevent, hannounced⟩ := List.mem_filterMap.mp ha
  obtain ⟨before, after, hsplit⟩ := List.append_of_mem hevent
  obtain ⟨-, -, -, hvalid⟩ := halong.of_split hsplit
  exact hvalid a hannounced

/-- What the result of a session says is what its events told. -/
structure Told (events : List Event) (result : ConversionResult) : Prop where
  sessionId : sessionIdIn events = some result.sessionId
  attempts : attemptIn events = result.attempts
  transactions : (planIn events).transactions = result.transactions
  artifacts : ∀ a, a ∈ announcedIn events ↔ a ∈ result.artifacts
  nodup : (Repair.names result.artifacts).Nodup

lemma told_of_done (h : Reached settings id source σ) {result : ConversionResult}
    (hdone : .done result ∈ σ.events) : Told (acceptedIn σ.steps) result := by
  obtain ⟨hhalted, -⟩ := completed_of_done h hdone
  obtain ⟨s, before, entry, time, hhistory, hsteps, rfl⟩ := hhalted.completed_inv
  obtain ⟨htied, hvalid⟩ := hhistory.tied
  have hkeeps : s.Keeps before := hhistory.keeps
  rw [hsteps, acceptedIn_recorded]
  refine ⟨hkeeps.id, htied.attempt.symm, congrArg _ hkeeps.plan.symm, fun a => ?_,
    htied.wellFormed.nodup_names⟩
  rw [hhistory.mem_announcedIn a, Point.Announced, SessionState.mem_accepted]
  exact and_iff_left_of_imp fun ha => SessionState.validated_of_allValid hvalid ha

/-! ## The store of a session -/

/-- Before its terminal event, a session shows the store what its events tell. -/
lemma shows_of_reached (epoch : ℕ) (h : Reached settings id source σ) :
    ((Store.forEpoch epoch).applyAll (acceptedIn σ.steps)).Shows (acceptedIn σ.steps) :=
  Store.shows_applyAll epoch (events_of_reached h).1 (nodup_announcedIn h)

/-- The result changes neither the contracts of the store nor what it knows of the session. -/
lemma applyAll_of_done (epoch : ℕ) (h : Reached settings id source σ) {result : ConversionResult}
    (hdone : .done result ∈ σ.events) :
    (Store.forEpoch epoch).applyAll σ.events =
      { (Store.forEpoch epoch).applyAll (acceptedIn σ.steps) with
        usage := result.usage, result := some result, status := .complete } := by
  have hshows := shows_of_reached epoch h
  have hsame := Store.foldl_upsert_of_subset (nodup_announcedIn h) fun a ha =>
    ((told_of_done h hdone).artifacts a).mpr ha
  rw [events_of_isTerminal h hdone rfl, Store.applyAll_concat,
    Store.apply_of_unfinished hshows.unfinished, Store.advance, hshows.contracts, hsame]
  rw [← hshows.contracts]

lemma applyAll_of_error (epoch : ℕ) (h : Reached settings id source σ) {message : String}
    {phase : Option ℕ} {detail : Option String} (herror : .error message phase detail ∈ σ.events) :
    (Store.forEpoch epoch).applyAll σ.events =
      { (Store.forEpoch epoch).applyAll (acceptedIn σ.steps) with
        error := some ⟨message, phase, detail⟩, status := .error } := by
  rw [events_of_isTerminal h herror rfl, Store.applyAll_concat,
    Store.apply_of_unfinished (shows_of_reached epoch h).unfinished, Store.advance]

/-- The contracts of the store are the artifacts that were announced. -/
lemma contracts_of_reached (epoch : ℕ) (h : Reached settings id source σ) :
    ((Store.forEpoch epoch).applyAll σ.events).contracts = announcedIn (acceptedIn σ.steps) := by
  have hshows := shows_of_reached epoch h
  rcases (events_of_reached h).2 with hevents | ⟨-, event, -, -, hterminal, hevents⟩
  · rw [hevents]
    exact hshows.contracts
  · have hevent : event ∈ σ.events := by simp [hevents]
    cases event with
    | done result =>
      rw [applyAll_of_done epoch h hevent]
      exact hshows.contracts
    | error message phase detail =>
      rw [applyAll_of_error epoch h hevent]
      exact hshows.contracts
    | _ => exact absurd hterminal (by simp [Event.isTerminal])

/-- Behind an error, what is pending is what was planned and not announced. -/
lemma pending_of_error {store : Store} {events : List Event} (hstatus : store.status = .error)
    (hplanned : store.planned = (planIn events).contracts)
    (hcontracts : store.contracts = announcedIn events) :
    store.pending =
      (planIn events).contracts.filter (·.name ∉ Repair.names (announcedIn events)) := by
  rw [Store.pending, if_neg (by simp [hstatus]), hplanned, hcontracts]
  refine List.filter_congr fun p _ => ?_
  rw [Bool.eq_iff_iff]
  simp [Repair.names]

/-- **The reader's view agrees with the session.** A store that takes in the events of a session has
exactly the announced artifacts, in the order of their announcement, and they are all valid. When
the session is done, the store is complete and agrees with the result in every part, which the
result itself does not change. When it ends with an error, the store has the error, and what is
pending is what was planned and not announced. When it is cancelled, the store is not finished. -/
theorem store_of_reached (epoch : ℕ) (h : Reached settings id source σ) :
    let store := (Store.forEpoch epoch).applyAll σ.events
    (store.contracts = announcedIn σ.events ∧ ∀ a ∈ store.contracts, a.validated = true) ∧
    (∀ result, .done result ∈ σ.events →
      store.status = .complete ∧ store.result = some result ∧
      store.contracts.Perm result.artifacts ∧
      (∃ before, σ.events = before ++ [.done result] ∧
        ((Store.forEpoch epoch).applyAll before).contracts = store.contracts) ∧
      store.sessionId = some result.sessionId ∧ store.attempt = result.attempts ∧
      store.transactions = result.transactions ∧ store.usage = result.usage ∧
      store.pending = []) ∧
    (∀ message phase detail, .error message phase detail ∈ σ.events →
      store.status = .error ∧ store.error = some ⟨message, phase, detail⟩ ∧
      store.pending = (planIn σ.events).contracts.filter
        (·.name ∉ Repair.names (announcedIn σ.events))) ∧
    ∀ halt, σ.task = .closed halt → halt.outcome = .cancelled →
      store.status.isTerminal = false := by
  intro store
  have hcontracts : store.contracts = announcedIn (acceptedIn σ.steps) :=
    contracts_of_reached epoch h
  have hshows := shows_of_reached epoch h
  refine ⟨⟨?_, fun a ha => ?_⟩, fun result hdone => ?_, fun message phase detail herror => ?_,
    fun halt htask hcancelled => ?_⟩
  · rw [hcontracts, announcedIn_events h]
  · rw [hcontracts] at ha
    exact validated_of_announced h ha
  · have htold := told_of_done h hdone
    have hstore : store = _ := applyAll_of_done epoch h hdone
    refine ⟨by rw [hstore], by rw [hstore], ?_,
      ⟨_, events_of_isTerminal h hdone rfl, hshows.contracts.trans hcontracts.symm⟩, ?_, ?_, ?_,
      by rw [hstore], ?_⟩
    · rw [hcontracts]
      exact (List.perm_ext_iff_of_nodup (List.Nodup.of_map _ (nodup_announcedIn h))
        (List.Nodup.of_map _ htold.nodup)).mpr htold.artifacts
    · rw [hstore]
      exact hshows.sessionId.trans htold.sessionId
    · rw [hstore]
      exact hshows.attempt.trans htold.attempts
    · rw [hstore]
      exact hshows.transactions.trans htold.transactions
    · rw [hstore]
      rfl
  · have hstore : store = _ := applyAll_of_error epoch h herror
    have hplan : planIn σ.events = planIn (acceptedIn σ.steps) := by
      rw [events_of_isTerminal h herror rfl, planIn_concat]
      rfl
    refine ⟨by rw [hstore], by rw [hstore], pending_of_error (by rw [hstore]) ?_ ?_⟩
    · rw [hplan, hstore]
      exact hshows.planned
    · rw [hcontracts, announcedIn_events h]
  · -- without a terminal event, the stream is what the task wrote
    have hevents : σ.events = acceptedIn σ.steps := by
      rcases (events_of_reached h).2 with hevents | ⟨-, event, -, -, hterminal, hevents⟩
      · exact hevents
      · have hplain := not_isTerminal_of_cancelled h htask hcancelled event (by simp [hevents])
        exact absurd hplain (by simp [hterminal])
    have hstore : store = (Store.forEpoch epoch).applyAll (acceptedIn σ.steps) := by rw [← hevents]
    rw [hstore]
    exact hshows.unfinished

/-- The store of the run with a repair is complete, and nothing is pending. -/
theorem store_of_reached_repaired :
    let store := (Store.forEpoch 1).applyAll Run.repaired.scene.events
    store.contracts = announcedIn Run.repaired.scene.events ∧
      ∃ result, .done result ∈ Run.repaired.scene.events ∧
        store.result = some result ∧ store.attempt = result.attempts ∧ store.pending = [] := by
  intro store
  let vault : Artifact :=
    { name := "Vault", code := "vault", validated := true, size := some 5, attempt := 1 }
  let token : Artifact :=
    { name := "Token", code := "token", validated := true, order := 1, size := some 5,
      attempt := 2 }
  let result : ConversionResult :=
    { sessionId := .greatest, mode := .multi, artifacts := [vault, token],
      attempts := 2, finishedAt := default }
  have hdone : .done result ∈ Run.repaired.scene.events := by decide +kernel
  obtain ⟨⟨hcontracts, -⟩, hcomplete, -⟩ := store_of_reached 1 Run.repaired_reached
  obtain ⟨-, hresult, -, -, -, hattempt, -, -, hpending⟩ := hcomplete result hdone
  exact ⟨hcontracts, result, hdone, hresult, hattempt, hpending⟩

end Scene
end ContractConversion
