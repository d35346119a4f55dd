import ContractConversion.Proofs.Session.Events
import ContractConversion.Proofs.Session.Execution

/-!
# Only what the validator accepted is delivered

A session delivers artifacts twice: it announces each one, and it hands all of them over when it is
done. Every artifact that is delivered

* is vouched for (`Vouched`): in the attempt that the artifact names, the validator was handed
  exactly its code and accepted it, and the artifact carries what the validator answered;
* has its code from the reply of that attempt (`Sourced`), in the way that `RawGeneration.Gives`
  describes.

Both are statements on the log alone. They are shown of every artifact of a session's state
(`History.proven`), as an artifact of the state is either new, or unchanged, or just judged.
-/

namespace ContractConversion

/-- The artifacts that an event delivers. -/
def Event.delivered : Event → List Artifact
  | artifactReady a => [a]
  | done result => result.artifacts
  | _ => []

/-- The names of the session, as they were reported last. -/
def orderIn (events : List Event) : List String :=
  (reportedIn events).map (·.name)

/-- The names of the accepted artifacts, as they were reported last. -/
def acceptedNamesIn (events : List Event) : List String :=
  ((reportedIn events).filter (·.validated)).map (·.name)

/-- In the attempt of the artifact the validator accepted its code, and the artifact carries the
answer. -/
structure Vouched (log : List Step) (a : Artifact) : Prop where
  validated : a.validated = true
  noError : a.validationError = none
  answered : ∃ size earlier, a.size = some size ∧
    .validated a.code (some (.ok (.valid size a.metadata))) :: earlier <:+ log ∧
    attemptIn (acceptedIn earlier) = a.attempt

/-- The reply that was received in the attempt of the artifact gives the code for its name. -/
def Sourced (log : List Step) (a : Artifact) : Prop :=
  ∃ request completion earlier r, .called request (some (.ok completion)) :: earlier <:+ log ∧
    0 < a.attempt ∧ attemptIn (acceptedIn earlier) = a.attempt ∧
    Generation.raw completion.data = .ok r ∧
    r.Gives (acceptedNamesIn (acceptedIn earlier)) (orderIn (acceptedIn earlier)) (modeIn earlier)
      a.name a.code

/-- An artifact of a session's state: it has its code from a reply, and the validator vouches for it
if it is marked as validated. -/
structure Proven (log : List Step) (a : Artifact) : Prop where
  sourced : Sourced log a
  vouched : a.validated = true → Vouched log a

section

variable {log log' : List Step} {a : Artifact}

lemma Vouched.mono (h : Vouched log a) (hlog : log <:+ log') : Vouched log' a := by
  obtain ⟨hvalid, hnone, size, earlier, hsize, hsuffix, hattempt⟩ := h
  exact ⟨hvalid, hnone, size, earlier, hsize, hsuffix.trans hlog, hattempt⟩

lemma Sourced.mono (h : Sourced log a) (hlog : log <:+ log') : Sourced log' a := by
  obtain ⟨request, completion, earlier, r, hsuffix, hrest⟩ := h
  exact ⟨request, completion, earlier, r, hsuffix.trans hlog, hrest⟩

lemma Proven.mono (h : Proven log a) (hlog : log <:+ log') : Proven log' a :=
  ⟨h.sourced.mono hlog, fun hvalid => (h.vouched hvalid).mono hlog⟩

/-- What the validator accepts is vouched for from then on; what it does not accept is not marked as
validated. -/
lemma Proven.judged (h : Proven log a) (hattempt : attemptIn (acceptedIn log) = a.attempt)
    (answer : Except OracleFault Validation) :
    Proven (.validated a.code (some answer) :: log) (a.judged answer) := by
  obtain ⟨request, completion, earlier, r, hsuffix, hsource⟩ := h.sourced
  refine ⟨⟨request, completion, earlier, r, hsuffix.trans (List.suffix_cons _ _), ?_⟩,
    fun hvalid => ?_⟩
  · rwa [a.judged_attempt, a.judged_name, a.judged_code]
  · rcases answer with fault | ⟨size, metadata⟩ | error
    · exact absurd hvalid (by simp [Artifact.judged])
    · exact ⟨rfl, rfl, size, log, rfl, List.suffix_rfl, hattempt⟩
    · exact absurd hvalid (by simp [Artifact.judged])

end

/-! ## What was reported -/

section Reported

variable {s : SessionState} {log : List Step}

/-- The report names the artifacts of the state. -/
lemma orderIn_of_reported (hs : s.WellFormed) (h : s.IsReported log) :
    orderIn (acceptedIn log) = s.order := by
  rw [orderIn, h, List.map_map, ← hs.names]
  rfl

/-- The report tells which of them are accepted. -/
lemma acceptedNamesIn_of_reported (h : s.IsReported log) :
    acceptedNamesIn (acceptedIn log) = Repair.names s.accepted := by
  rw [acceptedNamesIn, h, List.filter_map, List.map_map]
  rfl

end Reported

/-! ## The artifacts of a session -/

/-- The artifacts of a session at a point. -/
def Point.artifacts : Point → List Artifact
  | writing _ _ next => next.artifacts
  | asking _ s | announcing _ _ s _ | succeeding s => s.artifacts
  | checking _ _ _ checked todo => checked.reverse ++ todo
  | failing _ _ => []

lemma Point.mem_of_mem_attempts {settings : Settings} {left : ℕ} {s : SessionState}
    {lastError : String} {a : Artifact}
    (ha : a ∈ (Point.attempts settings left s lastError).artifacts) : a ∈ s.artifacts := by
  cases left with
  | zero => exact absurd ha List.not_mem_nil
  | succ left => exact ha

section

variable {settings : Settings} {id : Uuid} {source : String}

/-- What an attempt makes of the artifacts of its state is proven behind the call. -/
lemma proven_applied {s s' : SessionState} {log : List Step} {left elapsed : ℕ}
    {lastError : String} {answer : Except OracleFault Completion}
    (h : History settings id source (.asking (.attempt left lastError) s) log)
    (hproven : ∀ a ∈ s.artifacts, Proven log a) (happly : s.applyAnswer answer = .ok s')
    {a : Artifact} (ha : a ∈ s'.artifacts) :
    Proven (s.exchange source (.attempt left lastError) answer elapsed log) a := by
  obtain ⟨htied, hreported, hpos, -, -⟩ := h.tied
  obtain ⟨completion, rfl, htakes⟩ := takes_of_applyAnswer htied.wellFormed happly
  have hlog : log <:+ s.exchange source (.attempt left lastError) (.ok completion) elapsed log :=
    ⟨[_, _, _], rfl⟩
  by_cases hvalid : a.validated = true
  · -- an accepted artifact was there before
    have hacc := (htakes.accepted a).mp (SessionState.mem_accepted.mpr ⟨ha, hvalid⟩)
    exact (hproven a (SessionState.mem_accepted.mp hacc).1).mono hlog
  · obtain ⟨hattempt, r, hr, hgives⟩ := htakes.others a ha (Bool.not_eq_true _ ▸ hvalid)
    refine ⟨⟨_, completion, .looked false :: log, r, ⟨[_], rfl⟩, ?_, ?_, hr, ?_⟩,
      fun h => absurd h hvalid⟩
    · rw [hattempt]
      exact hpos
    · rw [acceptedIn_looked, hattempt]
      exact htied.attempt.symm
    · rw [acceptedIn_looked, modeIn_cons_of_none rfl,
        orderIn_of_reported htied.wellFormed hreported, acceptedNamesIn_of_reported hreported,
        ← htied.mode]
      exact hgives

/-- **At every point of a session all of its artifacts are proven.** -/
theorem History.proven {point : Point} {log : List Step}
    (h : History settings id source point log) : ∀ a ∈ point.artifacts, Proven log a := by
  induction h with
  | opened => exact fun a ha => absurd ha List.not_mem_nil
  | wrote h ih => exact fun a ha => (ih a ha).mono (List.suffix_cons _ _)
  | analysed completion elapsed h hs ih =>
    subst hs
    exact fun a ha => (ih a ha).mono ⟨[_, _, _], rfl⟩
  | notAnalysed h ih => exact fun a ha => absurd ha List.not_mem_nil
  | planned completion elapsed h hplan hs ih =>
    subst hs
    intro a ha
    have hmem := Point.mem_of_mem_attempts ha
    exact (ih a hmem).mono ⟨[_, _, _], rfl⟩
  | notPlanned h hplan ih => exact fun a ha => absurd ha List.not_mem_nil
  | applied h happly ih => exact fun a ha => proven_applied h ih happly ha
  | spent elapsed h happly ih =>
    intro a ha
    have hmem := Point.mem_of_mem_attempts ha
    exact (ih a hmem).mono ⟨[_, _, _], rfl⟩
  | unmerged h happly ih => exact fun a ha => absurd ha List.not_mem_nil
  | skipped h hdue ih =>
    intro b hb
    rw [Point.artifacts, List.reverse_cons, List.append_assoc] at hb
    exact ih b hb
  | @judged s log left lastError a checked todo answer h hdue ih =>
    have hlog : log <:+ .looked false :: log := List.suffix_cons _ _
    intro b hb
    rw [Point.artifacts, List.reverse_cons, List.append_assoc] at hb
    rcases List.mem_append.mp hb with hb | hb
    · exact (ih b (List.mem_append_left _ hb)).mono (hlog.trans (List.suffix_cons _ _))
    · rcases List.mem_cons.mp hb with rfl | hb
      · -- what is due belongs to the attempt in which it is judged
        have ha := (ih a (List.mem_append_right _ List.mem_cons_self)).mono hlog
        refine ha.judged ?_ answer
        rw [acceptedIn_looked, hdue.1]
        exact h.tied.1.attempt.symm
      · exact (ih b (List.mem_append_right _ (List.mem_cons_of_mem _ hb))).mono
          (hlog.trans (List.suffix_cons _ _))
  | checked h hs ih =>
    subst hs
    intro a ha
    exact ih a (List.mem_append_left _ ha)
  | announced h ha ih => exact fun a ha => (ih a ha).mono ⟨[_, _], rfl⟩
  | passedOver h ha ih => exact fun a ha => (ih a ha).mono (List.suffix_cons _ _)
  | succeeded h hvalid ih => exact ih
  | retried h hvalid ih => exact fun a ha => ih a (Point.mem_of_mem_attempts ha)

end

/-! ## What is delivered -/

namespace Scene

/-- **Only what the validator accepted is delivered.** Whatever a session's surroundings answer and
wherever it is cut off, every artifact that an event of its stream delivers was validated in its own
attempt, carries what the validator answered, and has its code from the reply of that attempt. -/
theorem delivered_vouched {settings : Settings} {id : Uuid} {source : String} {σ : Scene}
    (h : Reached settings id source σ) {event : Event} (hevent : event ∈ σ.events) {a : Artifact}
    (ha : a ∈ event.delivered) : Vouched σ.steps a ∧ Sourced σ.steps a := by
  cases event with
  | artifactReady b =>
    obtain rfl := List.mem_singleton.mp ha
    have halong : Along (fun log event => ∀ b, event = .artifactReady b → Vouched log b ∧
        Sourced log b) σ.steps := by
      refine along_of_reached (fun log event hplain b hb => ?_)
        (fun left lastError s b todo log hhistory hannounces c hc => ?_) h
      · exact absurd hplain.1 (by simp [hb, Event.announced?])
      · obtain rfl := Event.artifactReady.inj hc
        have hmem : b ∈ s.artifacts := hhistory.tied.2.2.2.2.subset List.mem_cons_self
        have hproven := hhistory.proven b hmem
        exact ⟨hproven.vouched hannounces.1, hproven.sourced⟩
    obtain ⟨before, after, hsplit⟩ := List.append_of_mem hevent
    obtain ⟨after', haccepted⟩ := accepted_of_events h hsplit rfl
    obtain ⟨earlier, hsuffix, -, hP⟩ := halong.of_split haccepted
    obtain ⟨hvouched, hsourced⟩ := hP a rfl
    exact ⟨hvouched.mono hsuffix, hsourced.mono hsuffix⟩
  | done result =>
    -- the result is that of a state in which every artifact is marked as validated
    obtain ⟨hhalted, -⟩ := completed_of_done h hevent
    obtain ⟨s, before, entry, time, hhistory, hlog, rfl⟩ := hhalted.completed_inv
    have hsuffix : before <:+ σ.steps := hlog ▸ List.suffix_cons _ _
    have hproven := (hhistory.proven a ha).mono hsuffix
    exact ⟨hproven.vouched (SessionState.validated_of_allValid hhistory.tied.2 ha), hproven.sourced⟩
  | _ => exact absurd ha List.not_mem_nil

/-- A token that was repaired under another name carries the code of the repair. -/
theorem delivered_vouched_repaired :
    let token : Artifact :=
      { name := "Token", code := "token", validated := true, order := 1, size := some 5,
        attempt := 2 }
    Event.artifactReady token ∈ Run.repaired.scene.events ∧
      Vouched Run.repaired.scene.steps token ∧ Sourced Run.repaired.scene.steps token := by
  intro token
  have hmem : Event.artifactReady token ∈ Run.repaired.scene.events := by decide +kernel
  exact ⟨hmem, delivered_vouched Run.repaired_reached hmem (List.mem_singleton_self token)⟩

end Scene
end ContractConversion
