import ContractConversion.Proofs.Session.History
import ContractConversion.Proofs.Session.State

/-!
# The attempts of a session, seen from its log

What the events and replies of a log say of the attempts: the number of the current one
(`attemptIn`), what was last reported (`reportedIn`), the mode that the replies fixed (`modeIn`) and
what was announced (`announcedIn`).

`History.tied` shows that the state of a session agrees with them at every point, and that the state
is well-formed there.
-/

namespace ContractConversion

/-! ## Views of events -/

namespace Event

/-- The number of the attempt that the event starts. -/
def attempt? : Event → Option ℕ
  | phase3Start attempt | phase4Start attempt _ => some attempt
  | _ => none

/-- What the event reports on the artifacts. -/
def reported? : Event → Option (List ArtifactStatus)
  | validation report => some report.artifacts
  | _ => none

/-- The artifact that the event announces. -/
def announced? : Event → Option Artifact
  | artifactReady a => some a
  | _ => none

/-- The event tells of progress: it neither announces an artifact nor ends the stream. -/
def IsPlain (event : Event) : Prop :=
  event.announced? = none ∧ event.isTerminal = false

end Event

/-- The number of the attempt that was started last; 0 before the first one. -/
def attemptIn (events : List Event) : ℕ :=
  events.foldl (fun attempt event => event.attempt?.getD attempt) 0

/-- What was reported last on the artifacts. -/
def reportedIn (events : List Event) : List ArtifactStatus :=
  events.foldl (fun reported event => event.reported?.getD reported) []

/-- The artifacts that were announced. -/
def announcedIn (events : List Event) : List Artifact :=
  events.filterMap Event.announced?

@[simp] lemma attemptIn_concat (events : List Event) (event : Event) :
    attemptIn (events ++ [event]) = event.attempt?.getD (attemptIn events) := by
  rw [attemptIn, List.foldl_concat, ← attemptIn]

@[simp] lemma reportedIn_concat (events : List Event) (event : Event) :
    reportedIn (events ++ [event]) = event.reported?.getD (reportedIn events) := by
  rw [reportedIn, List.foldl_concat, ← reportedIn]

@[simp] lemma announcedIn_concat (events : List Event) (event : Event) :
    announcedIn (events ++ [event]) = announcedIn events ++ event.announced?.toList := by
  cases h : event.announced? <;> simp [announcedIn, h]

/-! ## Views of a log -/

/-- The mode that a step fixes: that of the reply to a call, if it can be classified. -/
def Step.mode? : Step → Option Mode
  | .called _ (some (.ok completion)) => Generation.modeOf? completion.data
  | _ => none

/-- The mode that the replies in the attempts fixed; the first one that can be classified counts. -/
def modeIn : List Step → Option Mode
  | [] => none
  | step :: log => (modeIn log).or (if attemptIn (acceptedIn log) = 0 then none else step.mode?)

section Views

variable {log : List Step}

@[simp] lemma acceptedIn_wrote (event : Event) :
    acceptedIn (.emitted event (some .wrote) :: log) = acceptedIn log ++ [event] := rfl

@[simp] lemma acceptedIn_announced (a : Artifact) :
    acceptedIn (.announced a (some .wrote) :: log) = acceptedIn log ++ [.artifactReady a] := rfl

@[simp] lemma acceptedIn_passedOver (a : Artifact) :
    acceptedIn (.announced a (some .nothing) :: log) = acceptedIn log := List.append_nil _

@[simp] lemma acceptedIn_looked (gone : Bool) : acceptedIn (.looked gone :: log) = acceptedIn log :=
  List.append_nil _

@[simp] lemma acceptedIn_called (request : CompletionRequest)
    (answer : Option (Except OracleFault Completion)) :
    acceptedIn (.called request answer :: log) = acceptedIn log := List.append_nil _

@[simp] lemma acceptedIn_validated (code : String)
    (answer : Option (Except OracleFault Validation)) :
    acceptedIn (.validated code answer :: log) = acceptedIn log := List.append_nil _

@[simp] lemma acceptedIn_recorded (entry : AuditEntry) :
    acceptedIn (.recorded entry :: log) = acceptedIn log := List.append_nil _

/-- Only a reply can fix the mode. -/
lemma modeIn_cons_of_none {step : Step} (h : step.mode? = none) :
    modeIn (step :: log) = modeIn log := by
  rw [modeIn, h, ite_self, Option.or_none]

/-- An exchange fixes the mode if it is the first reply of the attempts that can be classified. -/
lemma modeIn_exchange {s : SessionState} {source : String} {quest : Quest} {elapsed : ℕ}
    {answer : Except OracleFault Completion} :
    modeIn (s.exchange source quest answer elapsed log) =
      (modeIn log).or (if attemptIn (acceptedIn log) = 0 then none else
        Step.mode? (.called (quest.request source s) (some answer))) := by
  rw [SessionState.exchange, modeIn_cons_of_none rfl, modeIn, modeIn_cons_of_none rfl,
    acceptedIn_looked]

@[simp] lemma acceptedIn_exchange {s : SessionState} {source : String} {quest : Quest} {elapsed : ℕ}
    {answer : Except OracleFault Completion} :
    acceptedIn (s.exchange source quest answer elapsed log) = acceptedIn log := by
  rw [SessionState.exchange, acceptedIn_recorded, acceptedIn_called, acceptedIn_looked]

end Views

/-! ## The artifact that was judged -/

namespace Artifact

@[simp] lemma judged_name (a : Artifact) (answer : Except OracleFault Validation) :
    (a.judged answer).name = a.name := by
  rcases answer with fault | ⟨size, metadata⟩ | error <;> rfl

@[simp] lemma judged_order (a : Artifact) (answer : Except OracleFault Validation) :
    (a.judged answer).order = a.order := by
  rcases answer with fault | ⟨size, metadata⟩ | error <;> rfl

@[simp] lemma judged_attempt (a : Artifact) (answer : Except OracleFault Validation) :
    (a.judged answer).attempt = a.attempt := by
  rcases answer with fault | ⟨size, metadata⟩ | error <;> rfl

@[simp] lemma judged_code (a : Artifact) (answer : Except OracleFault Validation) :
    (a.judged answer).code = a.code := by
  rcases answer with fault | ⟨size, metadata⟩ | error <;> rfl

end Artifact

/-! ## The state agrees with the log -/

namespace SessionState

/-- The state is well-formed and agrees with what the log says of the attempt and the mode. -/
structure Tied (s : SessionState) (log : List Step) : Prop where
  wellFormed : s.WellFormed
  attempt : s.attempt = attemptIn (acceptedIn log)
  mode : s.mode = modeIn log
  le_attempt : ∀ a ∈ s.artifacts, a.attempt ≤ s.attempt

/-- What was reported last is about the artifacts of the state. -/
def IsReported (s : SessionState) (log : List Step) : Prop :=
  reportedIn (acceptedIn log) = s.artifacts.map (·.status)

variable {s s' : SessionState} {log log' : List Step}

/-- What a tied state has on its analysis, its plan or its account does not matter. -/
lemma Tied.of_state (h : s.Tied log) (hartifacts : s'.artifacts = s.artifacts)
    (horder : s'.order = s.order) (hmode : s'.mode = s.mode) (hattempt : s'.attempt = s.attempt) :
    s'.Tied log := by
  obtain ⟨⟨hfresh, hnames, hnodup, hplace⟩, hatt, hm, hle⟩ := h
  refine ⟨⟨?_, ?_, ?_, ?_⟩, ?_, ?_, ?_⟩
  · rwa [hmode, hartifacts]
  · rwa [hartifacts, horder]
  · rwa [horder]
  · rwa [hartifacts]
  · rwa [hattempt]
  · rwa [hmode]
  · rwa [hartifacts, hattempt]

/-- Steps that start no attempt and fix no mode. -/
lemma Tied.of_log (h : s.Tied log)
    (hattempt : attemptIn (acceptedIn log') = attemptIn (acceptedIn log))
    (hmode : modeIn log' = modeIn log) : s.Tied log' :=
  ⟨h.wellFormed, h.attempt.trans hattempt.symm, h.mode.trans hmode.symm, h.le_attempt⟩

/-- Writing an event that starts no attempt. -/
lemma Tied.wrote {event : Event} (h : s.Tied log) (hevent : event.attempt? = none) :
    s.Tied (.emitted event (some .wrote) :: log) := by
  refine h.of_log ?_ (modeIn_cons_of_none rfl)
  rw [acceptedIn_wrote, attemptIn_concat, hevent, Option.getD_none]

/-- A reply before the first attempt fixes no mode. -/
lemma Tied.exchanged {source : String} {quest : Quest} {answer : Except OracleFault Completion}
    {elapsed : ℕ} (h : s.Tied log) (hzero : s.attempt = 0) :
    s.Tied (s.exchange source quest answer elapsed log) := by
  refine h.of_log (by rw [acceptedIn_exchange]) ?_
  rw [modeIn_exchange, if_pos (h.attempt.symm.trans hzero), Option.or_none]

lemma IsReported.wrote {event : Event} (h : s.IsReported log) (hevent : event.reported? = none) :
    s.IsReported (.emitted event (some .wrote) :: log) := by
  rw [IsReported, acceptedIn_wrote, reportedIn_concat, hevent, Option.getD_none]
  exact h

lemma IsReported.exchanged {source : String} {quest : Quest}
    {answer : Except OracleFault Completion} {elapsed : ℕ} (h : s.IsReported log) :
    s.IsReported (s.exchange source quest answer elapsed log) := by
  rw [IsReported, acceptedIn_exchange]
  exact h

/-- A report that was written is what was reported last. -/
lemma isReported_report (s : SessionState) (error : Option String) (log : List Step) :
    s.IsReported (.emitted (s.report error) (some .wrote) :: log) := by
  rw [IsReported, acceptedIn_wrote, reportedIn_concat]
  rfl

/-- The number of an attempt is what its first event says. -/
lemma attempt?_attemptStart (s : SessionState) : s.attemptStart.attempt? = some s.attempt := by
  rw [attemptStart]
  split <;> rfl

lemma isPlain_attemptStart (s : SessionState) : s.attemptStart.IsPlain := by
  rw [attemptStart]
  split <;> exact ⟨rfl, rfl⟩

lemma reported?_attemptStart (s : SessionState) : s.attemptStart.reported? = none := by
  rw [attemptStart]
  split <;> rfl

/-- The state of the next attempt is tied once its first event is written. -/
lemma Tied.nextAttempt (h : s.Tied log) :
    s.nextAttempt.Tied (.emitted s.nextAttempt.attemptStart (some .wrote) :: log) := by
  refine ⟨⟨h.wellFormed.fresh, h.wellFormed.names, h.wellFormed.nodup, h.wellFormed.place⟩, ?_,
    ?_, fun a ha => Nat.le_succ_of_le (h.le_attempt a ha)⟩
  · rw [acceptedIn_wrote, attemptIn_concat, attempt?_attemptStart, Option.getD_some]
  · rw [modeIn_cons_of_none rfl]
    exact h.mode

/-- Replacing an artifact by one of its name, place and attempt. -/
lemma Tied.replace {before after : List Artifact} {a b : Artifact}
    (h : ({ s with artifacts := before ++ a :: after } : SessionState).Tied log)
    (hname : b.name = a.name) (horder : b.order = a.order) (hattempt : b.attempt = a.attempt)
    (hin : attemptIn (acceptedIn log') = attemptIn (acceptedIn log))
    (hmode : modeIn log' = modeIn log) :
    ({ s with artifacts := before ++ b :: after } : SessionState).Tied log' := by
  refine ⟨⟨fun hnone => ?_, ?_, h.wellFormed.nodup, fun i c hc => ?_⟩, ?_, ?_, fun c hc => ?_⟩
  · exact absurd (h.wellFormed.fresh hnone) (by simp)
  · have hnames := h.wellFormed.names
    simpa [Repair.names, hname] using hnames
  · -- every other artifact stays in its place
    rw [List.getElem?_append] at hc
    have hplace := h.wellFormed.place i
    simp only [List.getElem?_append] at hplace
    split at hc
    · next hlt => exact hplace c (by rwa [if_pos hlt])
    · next hlt =>
      rw [if_neg hlt] at hplace
      cases hi : i - before.length with
      | zero =>
        rw [hi] at hc hplace
        obtain rfl := Option.some.inj hc
        rw [horder]
        exact hplace a rfl
      | succ k =>
        rw [hi] at hc hplace
        exact hplace c hc
  · exact h.attempt.trans hin.symm
  · exact h.mode.trans hmode.symm
  · rcases List.mem_append.mp hc with hc | hc
    · exact h.le_attempt c (List.mem_append_left _ hc)
    · rcases List.mem_cons.mp hc with rfl | hc
      · rw [hattempt]
        exact h.le_attempt a (List.mem_append_right _ List.mem_cons_self)
      · exact h.le_attempt c (List.mem_append_right _ (List.mem_cons_of_mem _ hc))

end SessionState

/-- What holds of the state and the log at a point. An artifact of an earlier attempt is always an
accepted one once there is an answer to validate. -/
def Point.Tied (settings : Settings) : Point → List Step → Prop
  | writing event _ next, log =>
    event.IsPlain ∧ next.Tied settings (.emitted event (some .wrote) :: log)
  | asking (.attempt left _) s, log =>
    s.Tied log ∧ s.IsReported log ∧ 0 < s.attempt ∧ left + s.attempt = settings.attempts ∧
      ∀ a ∈ s.artifacts, a.attempt < s.attempt
  | asking _ s, log => s.Tied log ∧ s.IsReported log ∧ s.attempt = 0 ∧ s.mode = none
  | checking left _ s checked todo, log =>
    ({ s with artifacts := checked.reverse ++ todo } : SessionState).Tied log ∧
      left + s.attempt = settings.attempts ∧
      (∀ a ∈ checked.reverse ++ todo, a.attempt < s.attempt → a.validated = true) ∧
      ∀ a ∈ todo, a.validated = true → a.attempt < s.attempt
  | announcing left _ s todo, log =>
    s.Tied log ∧ s.IsReported log ∧ left + s.attempt = settings.attempts ∧
      (∀ a ∈ s.artifacts, a.attempt < s.attempt → a.validated = true) ∧ todo <:+ s.artifacts
  | failing _ _, _ => True
  | succeeding s, log => s.Tied log ∧ s.allValid = true

section Tied

variable {settings : Settings} {id : Uuid} {source : String} {s s' : SessionState}
  {log log' : List Step}

/-- Behind a report, the attempts that are left are tied. -/
lemma tied_attempts {left : ℕ} {lastError : String} (h : s.Tied log) (hreported : s.IsReported log)
    (hleft : left + s.attempt = settings.attempts) :
    (Point.attempts settings left s lastError).Tied settings log := by
  cases left with
  | zero => trivial
  | succ left =>
    have hnext : s.nextAttempt.attempt = s.attempt + 1 := rfl
    have hagain : s.nextAttempt.IsReported log := hreported
    exact ⟨s.nextAttempt.isPlain_attemptStart, h.nextAttempt,
      hagain.wrote s.nextAttempt.reported?_attemptStart, Nat.succ_pos _, by omega,
      fun a ha => Nat.lt_succ_of_le (h.le_attempt a ha)⟩

/-- An answer that is taken in changes only what the session makes of its answers. -/
lemma frame_of_applyAnswer {answer : Except OracleFault Completion}
    (h : s.applyAnswer answer = .ok s') : s'.status = s.status ∧ s'.attempt = s.attempt ∧
      s'.analysis = s.analysis ∧ s'.plan = s.plan := by
  obtain ⟨completion, -, h⟩ := bind_eq_ok.mp h
  rw [SessionState.applyOutput] at h
  split at h
  · obtain ⟨output, -, h⟩ := bind_eq_ok.mp h
    obtain rfl := Except.ok.inj h
    exact ⟨rfl, rfl, rfl, rfl⟩
  · obtain ⟨output, -, h⟩ := bind_eq_ok.mp h
    obtain ⟨artifacts, -, h⟩ := bind_eq_ok.mp h
    obtain rfl := Except.ok.inj h
    exact ⟨rfl, rfl, rfl, rfl⟩

/-- An attempt that goes on to validation got a reply and took it in. -/
lemma takes_of_applyAnswer {answer : Except OracleFault Completion} (hs : s.WellFormed)
    (h : s.applyAnswer answer = .ok s') :
    ∃ completion, answer = .ok completion ∧ s.Takes completion.data s' := by
  obtain ⟨completion, hcompletion, h⟩ := bind_eq_ok.mp h
  obtain rfl := ok_of_mapError hcompletion
  have hcharged : (s.charged (.ok completion)).WellFormed :=
    ⟨hs.fresh, hs.names, hs.nodup, hs.place⟩
  obtain ⟨hwell, hattempt, hmode, haccepted, hothers⟩ := SessionState.applyOutput_spec hcharged h
  exact ⟨completion, rfl, hwell, hattempt, hmode, haccepted, hothers⟩

/-- What is validated behind an answer is what was accepted before, and belongs to an earlier
attempt. -/
lemma validated_iff_of_takes {data : Json.Value} (h : s.Takes data s')
    (hnew : ∀ a ∈ s.artifacts, a.attempt < s.attempt) {a : Artifact} (ha : a ∈ s'.artifacts) :
    a.validated = true ↔ a.attempt < s.attempt := by
  constructor
  · intro hv
    have hacc := (h.accepted a).mp (SessionState.mem_accepted.mpr ⟨ha, hv⟩)
    exact hnew a (SessionState.mem_accepted.mp hacc).1
  · intro hlt
    by_contra hv
    have hattempt := (h.others a ha (Bool.not_eq_true _ ▸ hv)).1
    exact absurd hlt (by rw [hattempt]; exact Nat.lt_irrefl _)

/-- An answer that an attempt takes in makes a new state that is tied. -/
lemma tied_applied {left : ℕ} {lastError : String} {completion : Completion} {elapsed : ℕ}
    (h : s.Tied log) (hpos : 0 < s.attempt) (hnew : ∀ a ∈ s.artifacts, a.attempt < s.attempt)
    (htakes : s.Takes completion.data s') :
    s'.Tied (s.exchange source (.attempt left lastError) (.ok completion) elapsed log) := by
  refine ⟨htakes.wellFormed, ?_, ?_, fun a ha => ?_⟩
  · rw [htakes.attempt, acceptedIn_exchange]
    exact h.attempt
  · rw [htakes.mode, modeIn_exchange, if_neg (by rw [← h.attempt]; omega), ← h.mode]
    rfl
  · rw [htakes.attempt]
    by_cases hv : a.validated = true
    · exact ((validated_iff_of_takes htakes hnew ha).mp hv).le
    · exact (htakes.others a ha (Bool.not_eq_true _ ▸ hv)).1.le

/-- An answer that an attempt cannot take in leaves the state tied. -/
lemma tied_charged {left : ℕ} {lastError : String} {answer : Except OracleFault Completion}
    {elapsed : ℕ} {fault : AttemptFault} (h : s.Tied log)
    (happly : s.applyAnswer answer = .error fault) :
    (s.charged answer).Tied (s.exchange source (.attempt left lastError) answer elapsed log) := by
  have hcharged : (s.charged answer).Tied log := h.of_state rfl rfl rfl rfl
  refine hcharged.of_log (by rw [acceptedIn_exchange]) ?_
  rw [modeIn_exchange]
  cases answer with
  | error fault =>
    -- without a reply there is nothing to classify
    have hnone : ∀ request, Step.mode? (.called request (some (.error fault))) = none :=
      fun _ => rfl
    rw [hnone, ite_self, Option.or_none]
  | ok completion =>
    have hmode := SessionState.mode_of_applyOutput_error (s := s.charged (.ok completion)) happly
    rw [SessionState.charged] at hmode
    rw [Step.mode?]
    split
    · rw [Option.or_none]
    · rw [← h.mode]
      exact hmode

/-- **At every point of a session its state agrees with its log.** -/
theorem History.tied {point : Point} (h : History settings id source point log) :
    point.Tied settings log := by
  induction h with
  | opened =>
    refine ⟨⟨rfl, rfl⟩, ⟨⟨fun _ => rfl, rfl, List.nodup_nil, fun i a ha => ?_⟩, rfl, rfl, ?_⟩,
      rfl, rfl, rfl⟩
    · exact absurd ha (by simp)
    · exact fun a ha => absurd ha List.not_mem_nil
  | wrote h ih => exact ih.2
  | analysed completion elapsed h hs ih =>
    obtain ⟨htied, hreported, hzero, hmode⟩ := ih
    subst hs
    refine ⟨⟨rfl, rfl⟩, ⟨rfl, rfl⟩, ?_, ?_, hzero, hmode⟩
    · exact .of_state (.wrote (.wrote (htied.exchanged hzero) rfl) rfl) rfl rfl rfl rfl
    · exact .wrote (.wrote hreported.exchanged rfl) rfl
  | notAnalysed h ih => trivial
  | planned completion elapsed h hplan hs ih =>
    obtain ⟨htied, hreported, hzero, hmode⟩ := ih
    subst hs
    refine ⟨⟨rfl, rfl⟩, tied_attempts ?_ ?_ (congrArg (settings.attempts + ·) hzero)⟩
    · exact .of_state (.wrote (htied.exchanged hzero) rfl) rfl rfl rfl rfl
    · exact .wrote hreported.exchanged rfl
  | notPlanned h hplan ih => trivial
  | applied h happly ih =>
    obtain ⟨htied, -, hpos, hleft, hnew⟩ := ih
    obtain ⟨completion, rfl, htakes⟩ := takes_of_applyAnswer htied.wellFormed happly
    refine ⟨tied_applied htied hpos hnew htakes, by rw [htakes.attempt, hleft], fun a ha hlt => ?_,
      fun a ha hv => ?_⟩
    · exact (validated_iff_of_takes htakes hnew ha).mpr (htakes.attempt ▸ hlt)
    · exact htakes.attempt ▸ (validated_iff_of_takes htakes hnew ha).mp hv
  | @spent s log answer fault left lastError elapsed h happly ih =>
    obtain ⟨htied, hreported, -, hleft, -⟩ := ih
    have hcharged : (s.charged answer).Tied
        (s.exchange source (.attempt left lastError) answer elapsed log) :=
      tied_charged htied happly
    exact ⟨⟨rfl, rfl⟩, tied_attempts (hcharged.wrote rfl)
      (SessionState.isReported_report _ _ _) hleft⟩
  | unmerged h happly ih => trivial
  | skipped h hdue ih =>
    -- the artifacts are the same, only the boundary between them moves
    obtain ⟨htied, hleft, hold, hnew⟩ := ih
    refine ⟨?_, hleft, ?_, fun a ha => hnew a (List.mem_cons_of_mem _ ha)⟩
    · rwa [List.reverse_cons, List.append_assoc]
    · rwa [List.reverse_cons, List.append_assoc]
  | @judged s log left lastError a checked todo answer h hdue ih =>
    obtain ⟨htied, hleft, hold, hnew⟩ := ih
    refine ⟨?_, hleft, ?_, fun b hb => hnew b (List.mem_cons_of_mem _ hb)⟩
    · rw [List.reverse_cons, List.append_assoc]
      refine htied.replace (a.judged_name answer) (a.judged_order answer) (a.judged_attempt answer)
        ?_ ?_
      · rw [acceptedIn_validated, acceptedIn_looked]
      · rw [modeIn_cons_of_none rfl, modeIn_cons_of_none rfl]
    · intro b hb hlt
      rw [List.reverse_cons, List.append_assoc] at hb
      rcases List.mem_append.mp hb with hb | hb
      · exact hold b (List.mem_append_left _ hb) hlt
      · rcases List.mem_cons.mp hb with rfl | hb
        · -- what is judged belongs to this attempt
          rw [a.judged_attempt, hdue.1] at hlt
          exact absurd hlt (Nat.lt_irrefl _)
        · exact hold b (List.mem_append_right _ (List.mem_cons_of_mem _ hb)) hlt
  | checked h hs ih =>
    obtain ⟨htied, hleft, hold, -⟩ := ih
    subst hs
    rw [List.append_nil] at htied hold
    exact ⟨⟨rfl, rfl⟩, htied.wrote rfl, SessionState.isReported_report _ _ _, hleft, hold,
      List.suffix_rfl⟩
  | announced h ha ih =>
    obtain ⟨htied, hreported, hleft, hold, hsuffix⟩ := ih
    refine ⟨htied.of_log ?_ ?_, ?_, hleft, hold, (List.suffix_cons _ _).trans hsuffix⟩
    · rw [acceptedIn_recorded, acceptedIn_announced, attemptIn_concat]
      rfl
    · rw [modeIn_cons_of_none rfl, modeIn_cons_of_none rfl]
    · rw [SessionState.IsReported, acceptedIn_recorded, acceptedIn_announced, reportedIn_concat]
      exact hreported
  | passedOver h ha ih =>
    obtain ⟨htied, hreported, hleft, hold, hsuffix⟩ := ih
    refine ⟨htied.of_log ?_ (modeIn_cons_of_none rfl), ?_, hleft, hold,
      (List.suffix_cons _ _).trans hsuffix⟩
    · rw [acceptedIn_passedOver]
    · rw [SessionState.IsReported, acceptedIn_passedOver]
      exact hreported
  | succeeded h hvalid ih => exact ⟨ih.1, hvalid⟩
  | retried h hvalid ih => exact tied_attempts ih.1 ih.2.1 ih.2.2.1

end Tied

end ContractConversion
