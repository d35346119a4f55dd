import ContractConversion.Proofs.Session.Announcements
import ContractConversion.Proofs.Session.Calls
import ContractConversion.Proofs.Session.Phases

/-!
# Why a session fails

A session fails in three ways only. In the first two phases it fails with its call, or with a plan
that cannot be read. Behind them a fault of the oracle or of the validator only uses up an attempt,
so that it fails once all attempts are used up, or if the fixes of a session with several contracts
cannot be merged. The fixes of a session with one contract always can: in every attempt its only
artifact has the name that the plan gives it.

`SessionFailure.Explained` says of a failure what the log has to say for it.
-/

namespace ContractConversion

/-! ## Views of a log -/

/-- The numbers of the attempts that were started. -/
def startedIn (events : List Event) : List ℕ :=
  events.filterMap Event.attempt?

@[simp] lemma startedIn_concat (events : List Event) (event : Event) :
    startedIn (events ++ [event]) = startedIn events ++ event.attempt?.toList := by
  cases h : event.attempt? <;> simp [startedIn, h]

/-- The answer to the last request, if there is one. -/
def answerIn : List Step → Option (Except OracleFault Completion)
  | [] => none
  | .called _ answer :: _ => answer
  | _ :: log => answerIn log

@[simp] lemma answerIn_exchange {s : SessionState} {source : String} {quest : Quest} {elapsed : ℕ}
    {answer : Except OracleFault Completion} {log : List Step} :
    answerIn (s.exchange source quest answer elapsed log) = some answer := rfl

/-! ## Explanations -/

/-- What the last report says of the error that a session gives for its failure: it is the error of
the report, which is why the last reply cannot be read; or the report has none, and it is the first
artifact that the report does not call validated, with the objection to it. -/
def Blamed (log : List Step) (last : Report) (firstError : String) : Prop :=
  match last.error with
  | some message =>
    firstError = message ∧ ∃ fault, replyIn log = some (.error fault) ∧ message = fault.message
  | none =>
    ∃ line code objection, last.artifacts.find? (fun line => !line.validated) = some line ∧
      (refusals (checksIn last.attempt log)).head? = some (code, objection) ∧
      firstError = line.name ++ ": " ++ objection

/-- What a log says for a failure. -/
def SessionFailure.Explained (settings : Settings) (log : List Step) : SessionFailure → Prop
  /- The call of one of the first two phases failed, or its plan cannot be read. -/
  | .oracle phase fault =>
    phaseIn (acceptedIn log) = phase ∧ (requestsIn log).length = phase ∧
      (phase = 1 ∧ answerIn log = some (.error fault) ∨
        phase = 2 ∧ ∃ answer, answerIn log = some answer ∧
          (answer >>= fun completion => Plan.parse completion.data) = .error fault)
  /- The reply of a repair in a session with several contracts was read, and cannot be merged into
  the artifacts that were announced. -/
  | .merge fault =>
    phaseIn (acceptedIn log) = 4 ∧ modeIn log = some .multi ∧
      ∃ output accepted, replyIn log = some (.ok output) ∧
        accepted.map (·.status) = (reportedIn (acceptedIn log)).filter (·.validated) ∧
        (∀ a ∈ accepted, a ∈ announcedIn (acceptedIn log)) ∧
        Repair.merge accepted (output.artifacts (attemptIn (acceptedIn log))
          (planIn (acceptedIn log)).singleName) (orderIn (acceptedIn log)) = .error fault
  /- All attempts were started, and the last one was reported on. -/
  | .attemptsExhausted attempts firstError =>
    attempts = max 1 settings.maxAttempts ∧
      startedIn (acceptedIn log) = List.range' 1 attempts ∧
      phaseIn (acceptedIn log) = (if attempts = 1 then 3 else 4) ∧
      ∃ last, reportIn (acceptedIn log) = some last ∧ last.attempt = attempts ∧
        Blamed log last firstError

section

variable {settings : Settings} {log : List Step}

/-- Writing an entry of the trail explains nothing. -/
lemma Blamed.recorded {last : Report} {firstError : String} (h : Blamed log last firstError)
    (entry : AuditEntry) : Blamed (.recorded entry :: log) last firstError := by
  rw [Blamed, replyIn_cons_of_none rfl, checksIn_cons_of_none rfl]
  exact h

lemma SessionFailure.Explained.recorded {failure : SessionFailure}
    (h : failure.Explained settings log) (entry : AuditEntry) :
    failure.Explained settings (.recorded entry :: log) := by
  cases failure with
  | oracle phase fault =>
    rw [Explained, acceptedIn_recorded, requestsIn_cons_of_none rfl]
    exact h
  | merge fault =>
    rw [Explained, acceptedIn_recorded, modeIn_cons_of_none rfl, replyIn_cons_of_none rfl]
    exact h
  | attemptsExhausted attempts firstError =>
    obtain ⟨hattempts, hstarted, hphase, last, hlast, hattempt, hblamed⟩ := h
    rw [Explained, acceptedIn_recorded]
    exact ⟨hattempts, hstarted, hphase, last, hlast, hattempt, hblamed.recorded entry⟩

end

/-! ## An only artifact can always be merged -/

/-- A fix of the only name can be merged, whatever is accepted. -/
lemma Repair.merge_only (accepted : List Artifact) (a : Artifact) :
    ∃ artifacts, merge accepted [a] [a.name] = .ok artifacts := by
  have hfirst : firstOfEach [] [a] = [a] := by simp [firstOfEach]
  have hfixes : reconcile [a] (names accepted) [a.name] = .ok [a] := by
    simp [reconcile, unknownNames, names]
  have hlast : lastNamed? [a] a.name = some a := by simp [lastNamed?]
  rw [merge, hfirst, hfixes]
  cases haccepted : lastNamed? accepted a.name with
  | none => exact ⟨_, by simp [bind, Except.bind, fillSlots, haccepted, hlast]; rfl⟩
  | some b => exact ⟨_, by simp [bind, Except.bind, fillSlots, haccepted]; rfl⟩

namespace SessionState

/-- The attempts up to that of the state were started. If there is one contract, it has the name
that the plan gives it. -/
structure Started (s : SessionState) (log : List Step) : Prop where
  attempts : startedIn (acceptedIn log) = List.range' 1 s.attempt
  only : s.mode = some .single → s.order = [s.plan.singleName]
  early : s.attempt = 0 → s.mode = none

variable {s s' : SessionState} {log log' : List Step} {answer : Except OracleFault Completion}

lemma Started.of_accepted (h : s.Started log) (hlog : startedIn (acceptedIn log') =
    startedIn (acceptedIn log)) : s.Started log' :=
  ⟨hlog.trans h.attempts, h.only, h.early⟩

/-- An attempt is started by its first event. -/
lemma Started.nextAttempt (h : s.Started log) :
    s.nextAttempt.Started (.emitted s.nextAttempt.attemptStart (some .wrote) :: log) := by
  refine ⟨?_, h.only, fun hzero => absurd hzero (Nat.succ_ne_zero _)⟩
  have hnext : s.nextAttempt.attempt = s.attempt + 1 := rfl
  rw [acceptedIn_wrote, startedIn_concat, h.attempts, attempt?_attemptStart, hnext,
    Option.toList_some, List.range'_1_concat, Nat.add_comm 1 s.attempt]

/-- An answer that is taken in fixes the mode, and the name of an only contract. -/
lemma only_of_applied (honly : s.mode = some .single → s.order = [s.plan.singleName])
    (h : s.applyAnswer answer = .ok s') :
    s'.mode.isSome ∧ (s'.mode = some .single → s'.order = [s'.plan.singleName]) := by
  obtain ⟨completion, -, h⟩ := bind_eq_ok.mp h
  cases hmode : s.mode with
  | none =>
    rw [applyOutput, charged, hmode] at h
    obtain ⟨output, -, h⟩ := bind_eq_ok.mp h
    obtain rfl := Except.ok.inj h
    refine ⟨rfl, fun hsingle => ?_⟩
    cases output with
    | single code => rfl
    | multi contracts deployment => cases hsingle
  | some mode =>
    rw [applyOutput, charged, hmode] at h
    obtain ⟨output, -, h⟩ := bind_eq_ok.mp h
    obtain ⟨artifacts, -, h⟩ := bind_eq_ok.mp h
    obtain rfl := Except.ok.inj h
    rw [hmode] at honly
    exact ⟨rfl, honly⟩

/-- The fixes of an only contract can be merged. -/
lemma mode_of_unmerged {cause : MergeFault}
    (honly : s.mode = some .single → s.order = [s.plan.singleName])
    (h : s.applyAnswer answer = .error (.merge cause)) :
    s.mode = some .multi ∧ ∃ output, s.reading answer = .ok output ∧
      Repair.merge s.accepted (output.artifacts s.attempt s.plan.singleName) s.order =
        .error cause := by
  rcases reading_of_error h with
    ⟨fault, hfault, -⟩ | ⟨fault, mode, output, hfault, hmode, hreading, hmerge⟩
  · cases hfault
  · obtain rfl := AttemptFault.merge.inj hfault
    refine ⟨?_, output, hreading, hmerge⟩
    cases mode with
    | multi => exact hmode
    | single =>
      -- the reply holds code only, which gets the name that is there
      exfalso
      obtain ⟨completion, -, hread⟩ := bind_eq_ok.mp hreading
      rw [hmode] at hread
      have hparse : Generation.parseAs .single completion.data = .ok output := hread
      obtain ⟨r, -, ⟨hmulti, -⟩ | ⟨-, code, rfl, -⟩⟩ := Generation.parseAs_ok hparse
      · cases hmulti
      · rw [honly hmode] at hmerge
        obtain ⟨artifacts, hok⟩ := Repair.merge_only s.accepted
          { name := s.plan.singleName, code, attempt := s.attempt }
        cases hok.symm.trans hmerge

end SessionState

/-! ## Every failure is explained -/

/-- What the log says at a point for the failures that may follow. -/
def Point.Explains (settings : Settings) : Point → List Step → Prop
  | writing event _ next, log => next.Explains settings (.emitted event (some .wrote) :: log)
  | asking (.attempt _ _) s, log => s.Started log ∧ (s.attempt = 1 → s.mode = none)
  | asking _ _, log => startedIn (acceptedIn log) = []
  | checking _ _ s _ _, log => s.Started log ∧ s.mode.isSome
  | announcing _ _ s _, log =>
    s.Started log ∧ s.mode.isSome ∧ ∃ last, reportIn (acceptedIn log) = some last ∧
      last.attempt = s.attempt ∧ last.error = none
  | failing _ failure, log => failure.Explained settings log
  | succeeding _, _ => True

section

variable {settings : Settings} {id : Uuid} {source : String} {s s' : SessionState}
  {log : List Step}

/-- The attempts that are left go on, or they are used up. -/
lemma explains_attempts {left : ℕ} {lastError : String} (hstarted : s.Started log)
    (hphase : left = 0 → s.InPhase (attemptPhase s.attempt) log)
    (hleft : left + s.attempt = settings.attempts)
    (hlast : left = 0 → ∃ last, reportIn (acceptedIn log) = some last ∧
      last.attempt = s.attempt ∧ Blamed log last lastError) :
    (Point.attempts settings left s lastError).Explains settings log := by
  cases left with
  | zero =>
    rw [Nat.zero_add] at hleft
    rw [Point.attempts, Point.Explains, SessionFailure.Explained, ← hleft]
    exact ⟨hleft, hstarted.attempts, (hphase rfl).started, hlast rfl⟩
  | succ left =>
    have hnext : s.nextAttempt.attempt = s.attempt + 1 := rfl
    refine ⟨hstarted.nextAttempt, fun hone => hstarted.early ?_⟩
    omega

/-- A session whose mode is fixed has artifacts. -/
lemma artifacts_ne_nil (htied : s.Tied log) (hkeeps : s.Keeps log) (hmode : s.mode.isSome) :
    s.artifacts ≠ [] := by
  obtain ⟨mode, hmode⟩ := Option.isSome_iff_exists.mp hmode
  have hblueprint := hkeeps.blueprint
  rw [SessionState.blueprint?, hmode, Option.map_some] at hblueprint
  obtain ⟨hne, -⟩ := names_of_blueprintIn hblueprint.symm
  intro hnil
  have hnames := htied.wellFormed.names
  -- the names of the artifacts are those of the blueprint, and it has some
  rw [hnil] at hnames
  exact hne hnames.symm

/-- If there are artifacts and not all of them passed, there is a first one that did not. -/
lemma exists_find?_of_not_allValid (hne : s.artifacts ≠ []) (hvalid : s.allValid = false) :
    ∃ a, s.artifacts.find? (fun a => !a.validated) = some a := by
  refine Option.ne_none_iff_exists'.mp fun hnone => ?_
  have hall : s.artifacts.all (·.validated) = true :=
    List.all_eq_true.mpr fun a ha => by simpa using List.find?_eq_none.mp hnone a ha
  rw [SessionState.allValid, hall, Bool.and_true, Bool.not_eq_false', List.isEmpty_iff] at hvalid
  exact hne hvalid

/-- A fault of the oracle is to blame if it used up the last attempt. -/
lemma blamed_spent {left elapsed : ℕ} {lastError : String}
    {answer : Except OracleFault Completion} {fault : OracleFault}
    (h : History settings id source (.asking (.attempt left lastError) s) log)
    (happly : s.applyAnswer answer = .error (.oracle fault)) :
    Blamed (.emitted ((s.charged answer).report (some fault.message)) (some .wrote) ::
      s.exchange source (.attempt left lastError) answer elapsed log)
      (.ofArtifacts s.attempt s.artifacts (some fault.message)) fault.message := by
  refine ⟨rfl, fault, ?_, rfl⟩
  rw [replyIn_cons_of_none rfl, h.tied.1.replyIn_exchange, SessionState.reading_of_spent happly]

/-- The first artifact that did not pass is to blame if there was something to check. -/
lemma blamed_retried {left : ℕ} {lastError : String} {last : Report}
    (h : History settings id source (.announcing left lastError s []) log)
    (hmode : s.mode.isSome) (hvalid : s.allValid = false)
    (hlast : reportIn (acceptedIn log) = some last) (hattempt : last.attempt = s.attempt)
    (herror : last.error = none) : Blamed log last (s.firstError?.getD lastError) := by
  obtain ⟨htied, hreported, -⟩ := h.tied
  obtain ⟨hkeeps, -⟩ := h.keeps
  have hchecked : s.Checked s.attempt log := h.calls.2.1
  have hlines : last.artifacts = s.artifacts.map (·.status) := by
    rw [SessionState.IsReported, reportedIn_eq, hlast] at hreported
    exact hreported
  -- the report, what is to be repaired and what was refused all begin with the same artifact
  obtain ⟨a, ha⟩ := exists_find?_of_not_allValid (artifacts_ne_nil htied hkeeps hmode) hvalid
  rw [Blamed, herror, hlines, hattempt, hchecked.refused, SessionState.firstError?, ha]
  refine ⟨a.status, a.code, a.errorText, ?_, ?_, rfl⟩
  · rw [List.find?_map]
    exact congrArg (Option.map _) ha
  · rw [List.head?_map, SessionState.retryBatch, List.head?_filter, ha]
    rfl

/-- A session fails with the merge of a repair only if it has several contracts. -/
lemma explained_unmerged {left elapsed : ℕ} {lastError : String}
    {answer : Except OracleFault Completion} {fault : MergeFault}
    (h : History settings id source (.asking (.attempt left lastError) s) log)
    (hstarted : s.Started log) (hfirst : s.attempt = 1 → s.mode = none)
    (happly : s.applyAnswer answer = .error (.merge fault)) :
    (SessionFailure.merge fault).Explained settings
      (s.exchange source (.attempt left lastError) answer elapsed log) := by
  obtain ⟨htied, hreported, -⟩ := h.tied
  obtain ⟨hmode, output, hreading, hmerge⟩ := SessionState.mode_of_unmerged hstarted.only happly
  have hplan : s.plan = planIn (acceptedIn log) := h.keeps.plan
  rw [SessionFailure.Explained, acceptedIn_exchange, modeIn_exchange, htied.replyIn_exchange,
    hreading, ← htied.mode, ← htied.attempt, ← hplan,
    orderIn_of_reported htied.wellFormed hreported, hreported]
  refine ⟨?_, by rw [hmode]; rfl, output, s.accepted, rfl, ?_, fun a ha => ?_, hmerge⟩
  · -- the mode is fixed, so this is not the first attempt
    have hne : s.attempt ≠ 1 := fun hone => by rw [hfirst hone] at hmode; cases hmode
    exact h.phased.started.trans (if_neg hne)
  · rw [SessionState.accepted, List.filter_map]
    rfl
  · exact (h.mem_announcedIn a).mpr ha

/-- **At every point of a session the log explains the failures that may follow.** -/
theorem History.explains {point : Point} (h : History settings id source point log) :
    point.Explains settings log := by
  induction h with
  | opened => rfl
  | wrote h ih => exact ih
  | analysed completion elapsed h hs ih =>
    have hnone : startedIn (acceptedIn _) = [] := ih
    rw [Point.Explains, Point.Explains, Point.Explains, acceptedIn_wrote, acceptedIn_wrote,
      acceptedIn_exchange, startedIn_concat, startedIn_concat, hnone]
    · rfl
    · exact fun left lastError hquest => by cases hquest
  | @notAnalysed s log fault elapsed h ih =>
    refine ⟨?_, ?_, Or.inl ⟨rfl, answerIn_exchange⟩⟩
    · rw [acceptedIn_exchange]
      exact h.phased.started
    · rw [requestsIn_exchange, List.length_append, h.calls.1.requests]
      rfl
  | @planned s s' log plan completion elapsed h hplan hs ih =>
    obtain ⟨-, -, hzero, hmode⟩ := h.tied
    have hnone : startedIn (acceptedIn log) = [] := ih
    subst hs
    have hsome : settings.attempts ≠ 0 := Nat.ne_of_gt (Nat.le_max_left 1 _)
    refine explains_attempts ⟨?_, fun hsingle => ?_, fun _ => hmode⟩ (fun h => absurd h hsome)
      (congrArg (settings.attempts + ·) hzero) fun h => absurd h hsome
    · rw [acceptedIn_wrote, acceptedIn_exchange, startedIn_concat, hnone]
      exact congrArg (List.range' 1) hzero.symm
    · cases hmode.symm.trans hsingle
  | @notPlanned s log answer fault elapsed h hplan ih =>
    refine ⟨?_, ?_, Or.inr ⟨rfl, answer, answerIn_exchange, hplan⟩⟩
    · rw [acceptedIn_exchange]
      exact h.phased.started
    · rw [requestsIn_exchange, List.length_append, h.calls.1.requests]
      rfl
  | @applied s s' log answer elapsed left lastError h happly ih =>
    obtain ⟨hstarted, -⟩ := ih
    obtain ⟨-, hattempt, -⟩ := frame_of_applyAnswer happly
    obtain ⟨hmode, honly⟩ := SessionState.only_of_applied hstarted.only happly
    refine ⟨⟨?_, honly, fun hzero => ?_⟩, hmode⟩
    · rw [acceptedIn_exchange, hattempt]
      exact hstarted.attempts
    · exact absurd (hattempt.symm.trans hzero) (Nat.ne_of_gt h.tied.2.2.1)
  | @spent s log answer fault left lastError elapsed h happly ih =>
    obtain ⟨hstarted, -⟩ := ih
    have hstarted' : (s.charged answer).Started
        (.emitted ((s.charged answer).report (some fault.message)) (some .wrote) ::
          s.exchange source (.attempt left lastError) answer elapsed log) := by
      refine ⟨?_, hstarted.only, hstarted.early⟩
      rw [acceptedIn_wrote, startedIn_concat, acceptedIn_exchange]
      exact (List.append_nil _).trans hstarted.attempts
    have hphase : (s.charged answer).InPhase (attemptPhase s.attempt)
        (s.exchange source (.attempt left lastError) answer elapsed log) :=
      .of_state h.phased.exchanged rfl
    refine explains_attempts hstarted' (fun _ => hphase.wrote rfl) h.tied.2.2.2.1
      fun _ => ⟨_, ?_, rfl, blamed_spent h happly⟩
    rw [acceptedIn_wrote, reportIn_concat]
    rfl
  | unmerged h happly ih => exact explained_unmerged h ih.1 ih.2 happly
  | skipped h hdue ih => exact ih
  | judged h hdue ih =>
    exact ⟨ih.1.of_accepted (by rw [acceptedIn_validated, acceptedIn_looked]), ih.2⟩
  | @checked s s' log left lastError checked h hs ih =>
    obtain ⟨hstarted, hmode⟩ := ih
    subst hs
    refine ⟨⟨?_, hstarted.only, hstarted.early⟩, hmode, .ofArtifacts s.attempt checked.reverse none,
      ?_, rfl, rfl⟩
    · rw [acceptedIn_wrote, startedIn_concat]
      exact (List.append_nil _).trans hstarted.attempts
    · rw [acceptedIn_wrote, reportIn_concat]
      rfl
  | announced h ha ih =>
    obtain ⟨hstarted, hmode, last, hlast, hreport⟩ := ih
    refine ⟨hstarted.of_accepted ?_, hmode, last, ?_, hreport⟩
    · rw [acceptedIn_recorded, acceptedIn_announced, startedIn_concat]
      exact List.append_nil _
    · rw [acceptedIn_recorded, acceptedIn_announced, reportIn_concat]
      exact hlast
  | passedOver h ha ih =>
    obtain ⟨hstarted, hmode, last, hlast, hreport⟩ := ih
    refine ⟨hstarted.of_accepted (by rw [acceptedIn_passedOver]), hmode, last, ?_, hreport⟩
    rw [acceptedIn_passedOver]
    exact hlast
  | succeeded h hvalid ih => trivial
  | retried h hvalid ih =>
    obtain ⟨hstarted, hmode, last, hlast, hattempt, herror⟩ := ih
    exact explains_attempts hstarted (fun _ => h.phased) h.tied.2.2.1
      fun _ => ⟨last, hlast, hattempt, blamed_retried h hmode hvalid hlast hattempt herror⟩

end

/-! ## The failure of a scene -/

namespace Scene

variable {settings : Settings} {id : Uuid} {source : String} {σ : Scene}

/-- The terminal event starts no phase. -/
lemma phaseIn_events (h : Reached settings id source σ) :
    phaseIn σ.events = phaseIn (acceptedIn σ.steps) := by
  rcases (events_of_reached h).2 with hevents | ⟨-, event, -, -, hterminal, hevents⟩
  · rw [hevents]
  · have hnone : event.phase? = none := by
      cases event <;> first | rfl | cases hterminal
    rw [hevents, phaseIn_concat, hnone, Option.getD_none]

/-- **Why a session fails.** The terminal event of a session that failed names the phase that was
started last and the kind of its failure, and the log explains the failure. So in the last two
phases no fault of the oracle or of the validator ends a session before its attempts are used up,
and only a session with several contracts fails with a merge. -/
theorem failure_of_closed (h : Reached settings id source σ) {halt : Halt}
    (hclosed : σ.task = .closed halt) (hfailed : halt.outcome = .failed) :
    ∃ failure : SessionFailure, failure.Explained settings σ.steps ∧
      halt.terminal? settings.timeoutMs =
        some (.error failure.message (some (phaseIn σ.events)) (some failure.detail)) := by
  have hsound := sound_of_reached ofSource_ends h
  rw [Sound, hclosed] at hsound
  have hhalted : Halted settings id source σ.steps halt := hsound.1
  obtain ⟨failure, phase, rfl⟩ : ∃ failure phase, halt = .ended (.failed failure phase) := by
    rcases halt with (result | ⟨failure, phase⟩ | _) | _ | _
    · cases hfailed
    · exact ⟨failure, phase, rfl⟩
    all_goals cases hfailed
  obtain ⟨s, before, entry, hhistory, hsteps, rfl⟩ := hhalted.failed_inv
  have hexplained : failure.Explained settings before := hhistory.explains
  have hphase : failure.phase?.or s.status.phase? = some (phaseIn σ.events) := by
    have hphased := hhistory.phased
    rw [phaseIn_events h, hsteps, acceptedIn_recorded]
    cases failure with
    | oracle phase fault => exact congrArg some hphased.started.symm
    | merge fault => exact hphased.status.trans (congrArg some hphased.started.symm)
    | attemptsExhausted attempts firstError =>
      exact hphased.status.trans (congrArg some hphased.started.symm)
  refine ⟨failure, ?_, ?_⟩
  · rw [hsteps]
    exact hexplained.recorded entry
  · rw [← hphase]
    rfl

/-- With one attempt only, the session of the faulty token fails in the third phase, and blames the
token. -/
theorem failure_of_closed_exhausted :
    let run := Run.ofSource { maxAttempts := 1 } .greatest "two contracts" .repairing
    phaseIn run.scene.events = 3 ∧ ∃ attempts firstError,
      (SessionFailure.attemptsExhausted attempts firstError).Explained { maxAttempts := 1 }
          run.scene.steps ∧
        (SessionFailure.attemptsExhausted attempts firstError).message =
          "Generation did not validate after 1 attempts: Token: no token" := by
  intro run
  have hphase : phaseIn run.scene.events = 3 := by decide +kernel
  have houtcome : run.halt.outcome = .failed := by decide +kernel
  have hterminal : run.halt.terminal? ({ maxAttempts := 1 } : Settings).timeoutMs =
      some (.error "Generation did not validate after 1 attempts: Token: no token" (some 3)
        (some "attempts_exhausted")) := by
    decide +kernel
  have hreached : Reached { maxAttempts := 1 } .greatest "two contracts" run.scene :=
    Run.reached _ _ _ _
  have hclosed : run.scene.task = .closed run.halt := rfl
  obtain ⟨failure, hexplained, hevent⟩ := failure_of_closed hreached hclosed houtcome
  obtain ⟨hmessage, -, hdetail⟩ := Event.error.inj (Option.some.inj (hevent.symm.trans hterminal))
  refine ⟨hphase, ?_⟩
  cases failure with
  | attemptsExhausted attempts firstError => exact ⟨attempts, firstError, hexplained, hmessage⟩
  | oracle phase fault => exact absurd hdetail (by simp [SessionFailure.detail])
  | merge fault => exact absurd hdetail (by simp [SessionFailure.detail])

end Scene

end ContractConversion
