import ContractConversion.Proofs.Session.Events
import ContractConversion.Proofs.Session.Execution

/-!
# What is announced stays as it is

An artifact is announced once, in the block of the attempt that it names, and whatever later
replies hold, the result of the session has it exactly as it was announced.

The invariant is `Point.Announced`: at each point of a session, the artifacts that were announced
are exactly those of its state that are accepted, up to the ones that this attempt has not come to
yet (`History.mem_announcedIn`).
-/

namespace ContractConversion

/-! ## The names that were noted -/

section

variable {settings : Settings} {id : Uuid} {source : String}

lemma announcedIn_wrote_of_plain {event : Event} {log : List Step} (h : event.IsPlain) :
    announcedIn (acceptedIn (.emitted event (some .wrote) :: log)) =
      announcedIn (acceptedIn log) := by
  rw [acceptedIn_wrote, announcedIn_concat, h.1, Option.toList_none, List.append_nil]

/-- The names noted along the log are those of the artifacts that were announced. -/
def NotesAnnounced (log : List Step) : Prop :=
  ∀ n, n ∈ notedIn log ↔ n ∈ Repair.names (announcedIn (acceptedIn log))

lemma NotesAnnounced.quiet {step : Step} {log : List Step} (h : NotesAnnounced log)
    (hnoted : step.noted? = none) (haccepted : step.accepted? = none) :
    NotesAnnounced (step :: log) := by
  intro n
  rw [acceptedIn_cons_of_none haccepted, notedIn, List.filterMap_cons_none hnoted]
  exact h n

lemma NotesAnnounced.exchange {s : SessionState} {quest : Quest} {elapsed : ℕ} {log : List Step}
    {answer : Except OracleFault Completion} (h : NotesAnnounced log) :
    NotesAnnounced (s.exchange source quest answer elapsed log) :=
  ((h.quiet rfl rfl).quiet rfl rfl).quiet rfl rfl

/-- Announcing a new artifact notes its name. -/
lemma NotesAnnounced.wrote {log : List Step} {a : Artifact} (h : NotesAnnounced log)
    (ha : Announces log a .wrote) : NotesAnnounced (.announced a (some .wrote) :: log) := by
  have hnoted : Step.noted? (.announced a (some .wrote)) = some a.name := by
    rw [Step.noted?, if_pos ha.1]
  intro n
  rw [acceptedIn_announced, announcedIn_concat, notedIn, List.filterMap_cons_some hnoted,
    List.mem_cons, Repair.names, List.map_append, List.mem_append]
  rw [Event.announced?, Option.toList_some, List.map_singleton, List.mem_singleton, or_comm]
  exact or_congr (h n) Iff.rfl

/-- Passing an artifact over notes no new name. -/
lemma NotesAnnounced.passedOver {log : List Step} {a : Artifact} (h : NotesAnnounced log)
    (ha : Announces log a .nothing) : NotesAnnounced (.announced a (some .nothing) :: log) := by
  by_cases hv : a.validated = true
  · have hold : a.name ∈ notedIn log := ha.resolve_left (by simp [hv])
    have hnoted : Step.noted? (.announced a (some .nothing)) = some a.name := by
      rw [Step.noted?, if_pos hv]
    intro n
    rw [acceptedIn_passedOver, ← h n, notedIn, List.filterMap_cons_some hnoted, List.mem_cons]
    exact ⟨fun hn => hn.elim (fun hn => hn ▸ hold) id, Or.inr⟩
  · exact h.quiet (by rw [Step.noted?, if_neg hv]) rfl

/-- In a session the emitter notes the names of the artifacts that were announced, and no others. -/
lemma History.notesAnnounced {point : Point} {log : List Step}
    (h : History settings id source point log) : NotesAnnounced log := by
  induction h with
  | opened => exact fun n => by simp [notedIn, Step.noted?, acceptedIn, announcedIn, Step.accepted?]
  | wrote h ih =>
    intro n
    rw [announcedIn_wrote_of_plain h.tied.1]
    exact ih n
  | analysed completion elapsed h hs ih => exact ih.exchange
  | notAnalysed h ih => exact ih.exchange
  | planned completion elapsed h hplan hs ih => exact ih.exchange
  | notPlanned h hplan ih => exact ih.exchange
  | applied h happly ih => exact ih.exchange
  | spent elapsed h happly ih => exact ih.exchange
  | unmerged h happly ih => exact ih.exchange
  | skipped h hdue ih => exact ih
  | judged h hdue ih => exact (ih.quiet rfl rfl).quiet rfl rfl
  | checked h hs ih => exact ih
  | announced h ha ih => exact (ih.wrote ha).quiet rfl rfl
  | passedOver h ha ih => exact ih.passedOver ha
  | succeeded h hvalid ih => exact ih
  | retried h hvalid ih => exact ih

/-! ## The artifacts that were announced -/

/-- The artifact was announced by the time the session comes to the point. -/
def Point.Announced : Point → Artifact → Prop
  | writing _ _ next, a => next.Announced a
  | checking _ _ s checked todo, a => a ∈ checked.reverse ++ todo ∧ a.attempt < s.attempt
  | announcing _ _ s todo, a => a ∈ s.accepted ∧ (a.attempt < s.attempt ∨ a ∉ todo)
  | asking _ s, a | failing s _, a | succeeding s, a => a ∈ s.accepted

lemma Point.announced_attempts {settings : Settings} {left : ℕ} {s : SessionState}
    {lastError : String} {a : Artifact} :
    (Point.attempts settings left s lastError).Announced a ↔ a ∈ s.accepted := by
  cases left with
  | zero => exact Iff.rfl
  | succ left => exact Iff.rfl

/-- What an attempt takes in does not change what was announced. -/
lemma announced_applied {s s' : SessionState} {data : Json.Value}
    (htakes : s.Takes data s') (hnew : ∀ a ∈ s.artifacts, a.attempt < s.attempt) (a : Artifact) :
    a ∈ s'.artifacts ∧ a.attempt < s'.attempt ↔ a ∈ s.accepted := by
  rw [htakes.attempt, ← htakes.accepted a, SessionState.mem_accepted]
  constructor
  · rintro ⟨ha, hlt⟩
    exact ⟨ha, (validated_iff_of_takes htakes hnew ha).mpr hlt⟩
  · rintro ⟨ha, hv⟩
    exact ⟨ha, (validated_iff_of_takes htakes hnew ha).mp hv⟩

/-- The artifact that comes next is a new one of the session's state, or its name was noted before
this attempt. -/
lemma announced_passedOver {s : SessionState} {log : List Step} {left : ℕ} {lastError : String}
    {a : Artifact} {todo : List Artifact}
    (h : History settings id source (.announcing left lastError s (a :: todo)) log)
    (hin : ∀ b, b ∈ announcedIn (acceptedIn log) ↔
      b ∈ s.accepted ∧ (b.attempt < s.attempt ∨ b ∉ a :: todo))
    (ha : Announces log a .nothing) (hacc : a ∈ s.accepted) : a.attempt < s.attempt := by
  obtain ⟨htied, -, -, -, hsuffix⟩ := h.tied
  have hnoted := ha.resolve_left (by simp [(SessionState.mem_accepted.mp hacc).2])
  obtain ⟨b, hb, hname⟩ := Repair.mem_names.mp ((h.notesAnnounced a.name).mp hnoted)
  obtain ⟨hbacc, hbold⟩ := (hin b).mp hb
  -- the names of the state are distinct, so what was announced is this very artifact
  obtain rfl := Repair.eq_of_name_eq htied.wellFormed.nodup_names
    (SessionState.mem_accepted.mp hbacc).1 (SessionState.mem_accepted.mp hacc).1 hname
  exact hbold.resolve_right fun hb => hb List.mem_cons_self

/-- **At every point of a session, what was announced is what the point says.** -/
theorem History.mem_announcedIn {point : Point} {log : List Step}
    (h : History settings id source point log) :
    ∀ a, a ∈ announcedIn (acceptedIn log) ↔ point.Announced a := by
  induction h with
  | opened => exact fun a => by simp [acceptedIn, Step.accepted?, announcedIn, Point.Announced,
      SessionState.accepted]
  | wrote h ih =>
    intro a
    rw [announcedIn_wrote_of_plain h.tied.1]
    exact ih a
  | analysed completion elapsed h hs ih =>
    subst hs
    exact fun a => by rw [acceptedIn_exchange]; exact ih a
  | notAnalysed h ih => exact fun a => by rw [acceptedIn_exchange]; exact ih a
  | planned completion elapsed h hplan hs ih =>
    subst hs
    intro a
    rw [acceptedIn_exchange, ih a, Point.Announced, Point.announced_attempts]
    exact Iff.rfl
  | notPlanned h hplan ih => exact fun a => by rw [acceptedIn_exchange]; exact ih a
  | applied h happly ih =>
    obtain ⟨htied, -, -, -, hnew⟩ := h.tied
    obtain ⟨completion, rfl, htakes⟩ := takes_of_applyAnswer htied.wellFormed happly
    intro a
    rw [acceptedIn_exchange, ih a]
    exact (announced_applied htakes hnew a).symm
  | spent elapsed h happly ih =>
    intro a
    rw [acceptedIn_exchange, ih a, Point.Announced, Point.announced_attempts]
    exact Iff.rfl
  | unmerged h happly ih => exact fun a => by rw [acceptedIn_exchange]; exact ih a
  | skipped h hdue ih =>
    intro a
    rw [ih a, Point.Announced, Point.Announced, List.reverse_cons, List.append_assoc]
    exact Iff.rfl
  | @judged s log left lastError a checked todo answer h hdue ih =>
    intro b
    rw [acceptedIn_validated, acceptedIn_looked, ih b, Point.Announced, Point.Announced,
      List.reverse_cons, List.append_assoc]
    -- neither the artifact nor what is made of it belongs to an earlier attempt
    have hnot : ∀ c : Artifact, c.attempt = s.attempt → b.attempt < s.attempt → b ≠ c :=
      fun c hc hlt heq => absurd hlt (by rw [heq, hc]; exact Nat.lt_irrefl _)
    refine and_congr_left fun hlt => ?_
    have h₁ := hnot a hdue.1 hlt
    have h₂ := hnot (a.judged answer) ((a.judged_attempt answer).trans hdue.1) hlt
    simp [h₁, h₂]
  | @checked s s' log left lastError checked h hs ih =>
    obtain ⟨-, -, hold, -⟩ := h.tied
    subst hs
    intro a
    rw [ih a, Point.Announced, Point.Announced, Point.Announced, SessionState.mem_accepted]
    rw [List.append_nil] at hold ⊢
    constructor
    · rintro ⟨ha, hlt⟩
      exact ⟨⟨ha, hold a ha hlt⟩, Or.inl hlt⟩
    · rintro ⟨⟨ha, -⟩, hlt | hnot⟩
      · exact ⟨ha, hlt⟩
      · exact absurd ha hnot
  | @announced s log left lastError a todo h ha ih =>
    obtain ⟨htied, -, -, -, hsuffix⟩ := h.tied
    have hnodup := htied.wellFormed.nodup_names
    have hacc : a ∈ s.accepted :=
      SessionState.mem_accepted.mpr ⟨hsuffix.subset List.mem_cons_self, ha.1⟩
    have hnot : a ∉ todo := by
      have := (List.Nodup.of_map _ hnodup).sublist hsuffix.sublist
      exact (List.nodup_cons.mp this).1
    intro b
    rw [acceptedIn_recorded, acceptedIn_announced, announcedIn_concat, List.mem_append, ih b,
      Event.announced?, Option.toList_some, List.mem_singleton, Point.Announced, Point.Announced]
    by_cases hb : b = a
    · subst hb
      simp [hacc, hnot]
    · simp [hb]
  | @passedOver s log left lastError a todo h ha ih =>
    have hold := announced_passedOver h ih ha
    intro b
    rw [acceptedIn_passedOver, ih b, Point.Announced, Point.Announced]
    by_cases hb : b = a
    · subst hb
      exact ⟨fun h => ⟨h.1, Or.inl (hold h.1)⟩, fun h => ⟨h.1, Or.inl (hold h.1)⟩⟩
    · simp [hb]
  | succeeded h hvalid ih =>
    intro a
    rw [ih a, Point.Announced, Point.Announced]
    simp
  | retried h hvalid ih =>
    intro a
    rw [ih a, Point.announced_attempts, Point.Announced]
    simp

/-- An artifact is announced in its own attempt and under a name that is new. -/
lemma announced_fresh {s : SessionState} {log : List Step} {left : ℕ} {lastError : String}
    {a : Artifact} {todo : List Artifact}
    (h : History settings id source (.announcing left lastError s (a :: todo)) log)
    (ha : Announces log a .wrote) :
    a.attempt = attemptIn (acceptedIn log) ∧
      a.name ∉ Repair.names (announcedIn (acceptedIn log)) := by
  have hnew : a.name ∉ Repair.names (announcedIn (acceptedIn log)) :=
    fun hn => ha.2 ((h.notesAnnounced a.name).mpr hn)
  refine ⟨?_, hnew⟩
  obtain ⟨htied, -, -, -, hsuffix⟩ := h.tied
  have hmem : a ∈ s.artifacts := hsuffix.subset List.mem_cons_self
  rw [← htied.attempt]
  refine Nat.le_antisymm (htied.le_attempt a hmem) (Nat.le_of_not_lt fun hlt => hnew ?_)
  -- an accepted artifact of an earlier attempt was announced there
  have hannounced := (h.mem_announcedIn a).mpr
    ⟨SessionState.mem_accepted.mpr ⟨hmem, ha.1⟩, Or.inl hlt⟩
  exact List.mem_map_of_mem hannounced

end

/-! ## The announcements of a stream -/

/-- The event announces an artifact of the current attempt under a new name, if it announces one. -/
def AnnouncesFresh (log : List Step) (event : Event) : Prop :=
  ∀ a, event.announced? = some a → a.attempt = attemptIn (acceptedIn log) ∧
    a.name ∉ Repair.names (announcedIn (acceptedIn log))

/-- Where every announcement is under a new name, the names are distinct. -/
lemma Along.nodup_announced {log : List Step} (h : Along AnnouncesFresh log) :
    (Repair.names (announcedIn (acceptedIn log))).Nodup := by
  induction log with
  | nil => exact List.nodup_nil
  | cons step rest ih =>
    cases hstep : step.accepted? with
    | none =>
      rw [acceptedIn_cons_of_none hstep]
      exact ih h.2
    | some event =>
      rw [acceptedIn_cons_of_some hstep, announcedIn_concat]
      cases hevent : event.announced? with
      | none =>
        rw [Option.toList_none, List.append_nil]
        exact ih h.2
      | some a =>
        obtain ⟨-, hnew⟩ := h.1 event hstep a hevent
        rw [Option.toList_some, Repair.names, List.map_append, List.map_singleton]
        refine List.nodup_append'.mpr ⟨ih h.2, List.nodup_singleton _, ?_⟩
        exact List.disjoint_singleton.mpr hnew

namespace Scene

variable {settings : Settings} {id : Uuid} {source : String} {σ : Scene}

lemma announcesFresh_of_reached (h : Reached settings id source σ) :
    Along AnnouncesFresh σ.steps := by
  refine along_of_reached (fun log event hplain a ha => ?_)
    (fun left lastError s b todo log hhistory hannounces a ha => ?_) h
  · exact absurd (hplain.1.symm.trans ha) (by simp)
  · obtain rfl := Option.some.inj ha
    exact announced_fresh hhistory hannounces

/-- The terminal event announces nothing. -/
lemma announcedIn_events (h : Reached settings id source σ) :
    announcedIn σ.events = announcedIn (acceptedIn σ.steps) := by
  rcases (events_of_reached h).2 with hevents | ⟨-, event, -, -, hterminal, hevents⟩
  · rw [hevents]
  · have hnone : event.announced? = none := by
      cases event with
      | artifactReady a => exact absurd hterminal (by simp [Event.isTerminal])
      | _ => rfl
    rw [hevents, announcedIn_concat, hnone, Option.toList_none, List.append_nil]

/-- **What is announced stays as it is.** No two announcements of a session have the same name, each
one is made in the attempt that its artifact names, and if the session is done, its result consists
of exactly the artifacts that were announced. -/
theorem announced_frozen (h : Reached settings id source σ) :
    (Repair.names (announcedIn σ.events)).Nodup ∧
      (∀ before a after, σ.events = before ++ .artifactReady a :: after →
        a.attempt = attemptIn before) ∧
      ∀ result, .done result ∈ σ.events → result.artifacts.Perm (announcedIn σ.events) := by
  have hfresh := announcesFresh_of_reached h
  have hnodup : (Repair.names (announcedIn σ.events)).Nodup := by
    rw [announcedIn_events h]
    exact hfresh.nodup_announced
  refine ⟨hnodup, fun before a after hsplit => ?_, fun result hdone => ?_⟩
  · obtain ⟨after', haccepted⟩ := accepted_of_events h hsplit rfl
    obtain ⟨earlier, -, hbefore, hnew⟩ := hfresh.of_split haccepted
    rw [← hbefore]
    exact (hnew a rfl).1
  · obtain ⟨hhalted, -⟩ := completed_of_done h hdone
    obtain ⟨s, before, entry, time, hhistory, hlog, rfl⟩ := hhalted.completed_inv
    obtain ⟨htied, hvalid⟩ := hhistory.tied
    refine (List.perm_ext_iff_of_nodup (List.Nodup.of_map _ htied.wellFormed.nodup_names)
      (List.Nodup.of_map _ hnodup)).mpr fun a => ?_
    rw [announcedIn_events h, hlog, acceptedIn_recorded, hhistory.mem_announcedIn a]
    -- all artifacts of a session that is done are accepted
    exact ⟨fun ha => SessionState.mem_accepted.mpr
      ⟨ha, SessionState.validated_of_allValid hvalid ha⟩,
      fun ha => (SessionState.mem_accepted.mp ha).1⟩

/-- A vault that the repair sends again with other code is handed over as it was announced. -/
theorem announced_frozen_repaired :
    let vault : Artifact :=
      { name := "Vault", code := "vault", validated := true, size := some 5, attempt := 1 }
    let token : Artifact :=
      { name := "Token", code := "token", validated := true, order := 1, size := some 5,
        attempt := 2 }
    let result : ConversionResult :=
      { sessionId := .greatest, mode := .multi, artifacts := [vault, token],
        attempts := 2, finishedAt := default }
    .done result ∈ Run.repaired.scene.events ∧
      [vault, token].Perm (announcedIn Run.repaired.scene.events) := by
  intro vault token result
  have hdone : .done result ∈ Run.repaired.scene.events := by decide +kernel
  exact ⟨hdone, (announced_frozen Run.repaired_reached).2.2 result hdone⟩

end Scene
end ContractConversion
