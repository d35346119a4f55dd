import ContractConversion.Proofs.Session.Ends

/-!
# The histories of a session

`History` says once what a session can have done when it comes to a point: it is about to write an
event, to ask for a completion, to have an artifact validated, to announce one, or to end. There is
one rule for each thing that leads from point to point, with what it adds to the log. `Halted` adds
the ways in which a session ends or is cut off at a point.

`ofSource_ends` shows that this covers every log of a session's course. Every fact on sessions is
then an induction over `History`.
-/

namespace ContractConversion

/-- What a session asks the completion oracle for. Behind an attempt some are left, and the one
before it failed with an error. -/
inductive Quest where
  | analysis
  | plan
  | attempt (left : ℕ) (lastError : String)

namespace Quest

/-- The request that is sent. -/
def request (source : String) (s : SessionState) : Quest → CompletionRequest
  | analysis => Prompt.analysis source
  | plan => Prompt.plan source s.analysis
  | attempt _ _ => s.attemptRequest source

/-- The number of the attempt, if it is one. -/
def number? (s : SessionState) : Quest → Option ℕ
  | attempt _ _ => some s.attempt
  | _ => none

end Quest

/-- What an answer cost. -/
def answerUsage : Except OracleFault Completion → Usage
  | .ok completion => completion.usage
  | .error _ => {}

/-- The error of an answer. -/
def answerError? : Except OracleFault Completion → Option String
  | .ok _ => none
  | .error fault => some fault.message

namespace SessionState

/-- The state when the cost of an answer is added. -/
def charged (s : SessionState) (answer : Except OracleFault Completion) : SessionState :=
  { s with usage := s.usage + answerUsage answer }

/-- The audit entry of an answered call. -/
def callEntry (s : SessionState) (quest : Quest) (answer : Except OracleFault Completion)
    (elapsed : ℕ) : AuditEntry :=
  .oracleCall (s.status.phase?.getD 0) (quest.number? s) elapsed (answerUsage answer)
    (answerError? answer)

/-- The log after a call was asked for and answered. -/
def exchange (s : SessionState) (source : String) (quest : Quest)
    (answer : Except OracleFault Completion) (elapsed : ℕ) (log : List Step) : List Step :=
  .recorded (s.callEntry quest answer elapsed) ::
    .called (quest.request source s) (some answer) :: .looked false :: log

/-- What an answer does to the artifacts. -/
def applyAnswer (s : SessionState) (answer : Except OracleFault Completion) :
    Except AttemptFault SessionState :=
  answer.mapError AttemptFault.oracle >>= fun completion =>
    (s.charged answer).applyOutput completion.data

/-- The validator is due for the artifact. -/
def IsDue (s : SessionState) (a : Artifact) : Prop :=
  a.attempt = s.attempt ∧ a.validated = false

/-- The log when a session that noticed the loss of its reader is over. -/
def cancelEntry (s : SessionState) : Step :=
  .recorded (.sessionFinished s.status s.attempt (some "cancelled"))

end SessionState

/-- Where a session stands between two things that it does. -/
inductive Point where
  /-- It is about to write an event. -/
  | writing (event : Event) (s : SessionState) (next : Point)
  /-- It is about to look for its reader and to ask for a completion. -/
  | asking (quest : Quest) (s : SessionState)
  /-- It has artifacts validated; the last one that was dealt with comes first. -/
  | checking (left : ℕ) (lastError : String) (s : SessionState) (checked todo : List Artifact)
  /-- It announces artifacts. -/
  | announcing (left : ℕ) (lastError : String) (s : SessionState) (todo : List Artifact)
  | failing (s : SessionState) (failure : SessionFailure)
  | succeeding (s : SessionState)

/-- The point in front of the attempts that are left. -/
def Point.attempts (settings : Settings) : ℕ → SessionState → String → Point
  | 0, s, lastError => .failing s (.attemptsExhausted settings.attempts lastError)
  | left + 1, s, lastError =>
    .writing s.nextAttempt.attemptStart s.nextAttempt
      (.asking (.attempt left lastError) s.nextAttempt)

/-- The report on the artifacts of a state. -/
def SessionState.report (s : SessionState) (error : Option String) : Event :=
  .validation (.ofArtifacts s.attempt s.artifacts error)

section

variable (settings : Settings) (id : Uuid) (source : String)

/-- The logs with which a session comes to a point. -/
inductive History : Point → List Step → Prop
  | opened :
      History (.writing (.phase1Start id) { id, status := .phase1 }
        (.asking .analysis { id, status := .phase1 })) [.recorded (.sessionStarted source.length)]
  | wrote {event : Event} {s : SessionState} {next : Point} {log : List Step}
      (h : History (.writing event s next) log) :
      History next (.emitted event (some .wrote) :: log)
  | analysed {s s' : SessionState} {log : List Step} (completion : Completion) (elapsed : ℕ)
      (h : History (.asking .analysis s) log)
      (hs : s' = { s.charged (.ok completion) with analysis := completion.data }) :
      History (.writing (.phase1Complete completion.data completion.usage) s'
          (.writing .phase2Start { s' with status := .phase2 }
            (.asking .plan { s' with status := .phase2 })))
        (s.exchange source .analysis (.ok completion) elapsed log)
  | notAnalysed {s : SessionState} {log : List Step} {fault : OracleFault} {elapsed : ℕ}
      (h : History (.asking .analysis s) log) :
      History (.failing (s.charged (.error fault)) (.oracle 1 fault))
        (s.exchange source .analysis (.error fault) elapsed log)
  | planned {s s' : SessionState} {log : List Step} {plan : Plan} (completion : Completion)
      (elapsed : ℕ) (h : History (.asking .plan s) log)
      (hplan : Plan.parse completion.data = .ok plan)
      (hs : s' = { s.charged (.ok completion) with plan }) :
      History (.writing (.phase2Complete plan.contracts plan.transactions completion.usage) s'
          (.attempts settings settings.attempts s' "no generation attempt completed"))
        (s.exchange source .plan (.ok completion) elapsed log)
  | notPlanned {s : SessionState} {log : List Step} {answer : Except OracleFault Completion}
      {fault : OracleFault} {elapsed : ℕ} (h : History (.asking .plan s) log)
      (hplan : (answer >>= fun c => Plan.parse c.data) = .error fault) :
      History (.failing (s.charged answer) (.oracle 2 fault))
        (s.exchange source .plan answer elapsed log)
  | applied {s s' : SessionState} {log : List Step} {answer : Except OracleFault Completion}
      {elapsed left : ℕ} {lastError : String}
      (h : History (.asking (.attempt left lastError) s) log)
      (happly : s.applyAnswer answer = .ok s') :
      History (.checking left lastError s' [] s'.artifacts)
        (s.exchange source (.attempt left lastError) answer elapsed log)
  | spent {s : SessionState} {log : List Step} {answer : Except OracleFault Completion}
      {fault : OracleFault} {left : ℕ} {lastError : String} (elapsed : ℕ)
      (h : History (.asking (.attempt left lastError) s) log)
      (happly : s.applyAnswer answer = .error (.oracle fault)) :
      History (.writing ((s.charged answer).report (some fault.message)) (s.charged answer)
          (.attempts settings left (s.charged answer) fault.message))
        (s.exchange source (.attempt left lastError) answer elapsed log)
  | unmerged {s : SessionState} {log : List Step} {answer : Except OracleFault Completion}
      {fault : MergeFault} {elapsed left : ℕ} {lastError : String}
      (h : History (.asking (.attempt left lastError) s) log)
      (happly : s.applyAnswer answer = .error (.merge fault)) :
      History (.failing (s.charged answer) (.merge fault))
        (s.exchange source (.attempt left lastError) answer elapsed log)
  | skipped {s : SessionState} {log : List Step} {left : ℕ} {lastError : String} {a : Artifact}
      {checked todo : List Artifact}
      (h : History (.checking left lastError s checked (a :: todo)) log)
      (hdue : ¬ s.IsDue a) : History (.checking left lastError s (a :: checked) todo) log
  | judged {s : SessionState} {log : List Step} {left : ℕ} {lastError : String} {a : Artifact}
      {checked todo : List Artifact} {answer : Except OracleFault Validation}
      (h : History (.checking left lastError s checked (a :: todo)) log) (hdue : s.IsDue a) :
      History (.checking left lastError s (a.judged answer :: checked) todo)
        (.validated a.code (some answer) :: .looked false :: log)
  | checked {s s' : SessionState} {log : List Step} {left : ℕ} {lastError : String}
      {checked : List Artifact} (h : History (.checking left lastError s checked []) log)
      (hs : s' = { s with artifacts := checked.reverse }) :
      History (.writing (s'.report none) s' (.announcing left lastError s' s'.artifacts)) log
  | announced {s : SessionState} {log : List Step} {left : ℕ} {lastError : String} {a : Artifact}
      {todo : List Artifact} (h : History (.announcing left lastError s (a :: todo)) log)
      (ha : Announces log a .wrote) :
      History (.announcing left lastError s todo)
        (.recorded (.artifactPersisted a.name a.attempt a.size a.code.length) ::
          .announced a (some .wrote) :: log)
  | passedOver {s : SessionState} {log : List Step} {left : ℕ} {lastError : String} {a : Artifact}
      {todo : List Artifact} (h : History (.announcing left lastError s (a :: todo)) log)
      (ha : Announces log a .nothing) :
      History (.announcing left lastError s todo) (.announced a (some .nothing) :: log)
  | succeeded {s : SessionState} {log : List Step} {left : ℕ} {lastError : String}
      (h : History (.announcing left lastError s []) log) (hvalid : s.allValid = true) :
      History (.succeeding s) log
  | retried {s : SessionState} {log : List Step} {left : ℕ} {lastError : String}
      (h : History (.announcing left lastError s []) log) (hvalid : s.allValid = false) :
      History (.attempts settings left s (s.firstError?.getD lastError)) log

/-- The logs with which a session ends, and how it ends. -/
inductive Halted : List Step → Halt → Prop
  | writeCut {event : Event} {s : SessionState} {next : Point} {log : List Step}
      (h : History settings id source (.writing event s next) log) :
      Halted (.emitted event none :: log) .timedOut
  | writeLost {event : Event} {s : SessionState} {next : Point} {log : List Step}
      (h : History settings id source (.writing event s next) log) :
      Halted (s.cancelEntry :: .emitted event (some .disconnected) :: log) (.ended .cancelled)
  | askLost {quest : Quest} {s : SessionState} {log : List Step}
      (h : History settings id source (.asking quest s) log) :
      Halted (s.cancelEntry :: .looked true :: log) (.ended .cancelled)
  | askCut {quest : Quest} {s : SessionState} {log : List Step} {halt : Halt}
      (h : History settings id source (.asking quest s) log)
      (hhalt : halt = .timedOut ∨ halt = .panicked) :
      Halted (.called (quest.request source s) none :: .looked false :: log) halt
  | checkLost {s : SessionState} {log : List Step} {left : ℕ} {lastError : String} {a : Artifact}
      {checked todo : List Artifact}
      (h : History settings id source (.checking left lastError s checked (a :: todo)) log)
      (hdue : s.IsDue a) : Halted (s.cancelEntry :: .looked true :: log) (.ended .cancelled)
  | checkCut {s : SessionState} {log : List Step} {left : ℕ} {lastError : String} {a : Artifact}
      {checked todo : List Artifact} {halt : Halt}
      (h : History settings id source (.checking left lastError s checked (a :: todo)) log)
      (hdue : s.IsDue a) (hhalt : halt = .timedOut ∨ halt = .panicked) :
      Halted (.validated a.code none :: .looked false :: log) halt
  | announceCut {s : SessionState} {log : List Step} {left : ℕ} {lastError : String} {a : Artifact}
      {todo : List Artifact}
      (h : History settings id source (.announcing left lastError s (a :: todo)) log) :
      Halted (.announced a none :: log) .timedOut
  | announceLost {s : SessionState} {log : List Step} {left : ℕ} {lastError : String}
      {a : Artifact} {todo : List Artifact}
      (h : History settings id source (.announcing left lastError s (a :: todo)) log)
      (ha : Announces log a .disconnected) :
      Halted (s.cancelEntry :: .announced a (some .disconnected) :: log) (.ended .cancelled)
  | failed {s : SessionState} {failure : SessionFailure} {log : List Step}
      (h : History settings id source (.failing s failure) log) :
      Halted (.recorded (.sessionFinished .error s.attempt (some failure.message)) :: log)
        (.ended (.failed failure (failure.phase?.or s.status.phase?)))
  | completed {s : SessionState} {log : List Step} {time : Time.Instant}
      (h : History settings id source (.succeeding s) log) :
      Halted (.recorded (.sessionFinished .complete s.attempt none) :: log)
        (.ended (.completed (s.result time)))

end

/-! ## The course of a session has no other histories -/

section

variable {settings : Settings} {id : Uuid} {source : String} {s : SessionState} {log : List Step}

/-- Writing an event and going on if the reader is there. -/
lemma tell_ends {event : Event} {next : Course} {point : Point}
    (h : History settings id source (.writing event s point) log)
    (hevent : event.isTerminal = false)
    (hnext : next.Ends (Halted settings id source) (.emitted event (some .wrote) :: log)) :
    (Course.tell s event next).Ends (Halted settings id source) log := by
  refine ⟨hevent, .writeCut h, fun answer hanswer => ?_⟩
  rcases hanswer with rfl | rfl
  · exact hnext
  · exact .writeLost h

/-- Looking for the reader and asking for a completion. -/
lemma ask_ends {quest : Quest}
    {next : SessionState → Except OracleFault Completion → Course}
    (h : History settings id source (.asking quest s) log)
    (hnext : ∀ answer elapsed, (next (s.charged answer) answer).Ends (Halted settings id source)
      (s.exchange source quest answer elapsed log)) :
    (Course.checkpoint s (Course.call s (quest.request source s) (quest.number? s) next)).Ends
      (Halted settings id source) log := by
  intro gone
  cases gone with
  | true => exact .askLost h
  | false =>
    refine ⟨.askCut h (Or.inl rfl), .askCut h (Or.inr rfl), fun answer elapsed => ?_⟩
    cases answer with
    | ok completion => exact hnext (.ok completion) elapsed
    | error fault => exact hnext (.error fault) elapsed

lemma fail_ends {failure : SessionFailure}
    (h : History settings id source (.failing s failure) log) :
    (Course.fail s failure).Ends (Halted settings id source) log :=
  .failed h

lemma succeed_ends (h : History settings id source (.succeeding s) log) :
    (Course.succeed s).Ends (Halted settings id source) log :=
  fun _ => .completed h

/-- Having the artifacts validated that are due. -/
lemma validateFrom_ends {left : ℕ} {lastError : String} {checked todo : List Artifact}
    {next : SessionState → Course}
    (h : History settings id source (.checking left lastError s checked todo) log)
    (hnext : ∀ all log', History settings id source (.checking left lastError s all []) log' →
      (next { s with artifacts := all.reverse }).Ends (Halted settings id source) log') :
    (Course.validateFrom s checked todo next).Ends (Halted settings id source) log := by
  induction todo generalizing checked log with
  | nil => exact hnext checked log h
  | cons a rest ih =>
    rw [Course.validateFrom]
    split
    · next hdue =>
      intro gone
      cases gone with
      | true => exact .checkLost h hdue
      | false =>
        refine ⟨.checkCut h hdue (Or.inl rfl), .checkCut h hdue (Or.inr rfl), fun answer => ?_⟩
        exact ih (.judged h hdue)
    · next hdue => exact ih (.skipped h hdue)

/-- Announcing artifacts. -/
lemma announceAll_ends {left : ℕ} {lastError : String} {todo : List Artifact} {next : Course}
    (h : History settings id source (.announcing left lastError s todo) log)
    (hnext : ∀ log', History settings id source (.announcing left lastError s []) log' →
      next.Ends (Halted settings id source) log') :
    (Course.announceAll s todo next).Ends (Halted settings id source) log := by
  -- the log grows with every artifact
  induction todo generalizing log with
  | nil => exact hnext log h
  | cons a rest ih =>
    refine ⟨.announceCut h, fun answer ha => ?_⟩
    cases answer with
    | wrote => exact ih (.announced h ha)
    | nothing => exact ih (.passedOver h ha)
    | disconnected => exact .announceLost h ha
    | blocked => exact ha.elim

lemma isTerminal_attemptStart (s : SessionState) : s.attemptStart.isTerminal = false := by
  rw [SessionState.attemptStart]
  split <;> rfl

/-- The attempts that are left. -/
lemma attempts_ends {left : ℕ} {lastError : String}
    (h : History settings id source (.attempts settings left s lastError) log) :
    (Course.attempts settings source left s lastError).Ends (Halted settings id source) log := by
  -- a further attempt starts from another state, with another error and a longer log
  induction left generalizing s lastError log with
  | zero => exact fail_ends h
  | succ left ih =>
    refine tell_ends h (isTerminal_attemptStart _) (ask_ends (.wrote h) fun answer elapsed => ?_)
    have hasked : History settings id source (.asking (.attempt left lastError) s.nextAttempt) _ :=
      .wrote h
    -- the three things that can become of an answer
    split
    · next fault happly => exact fail_ends (.unmerged hasked happly)
    · next fault happly =>
      have hspent := History.spent elapsed hasked happly
      exact tell_ends hspent rfl (ih (.wrote hspent))
    · next s' happly =>
      refine validateFrom_ends (.applied hasked happly) fun all log' hall => ?_
      have hreport := History.checked hall rfl
      refine tell_ends hreport rfl (announceAll_ends (.wrote hreport) fun log'' hdone => ?_)
      split
      · next hvalid => exact succeed_ends (.succeeded hdone hvalid)
      · next hvalid => exact ih (.retried hdone (Bool.not_eq_true _ ▸ hvalid))

/-- **Every log of a session's course is a history.** -/
theorem ofSource_ends :
    (Course.ofSource settings id source).Ends (Halted settings id source) [] := by
  have hopen : History settings id source _ _ := .opened
  refine tell_ends hopen rfl (ask_ends (.wrote hopen) fun answer elapsed => ?_)
  cases answer with
  | error fault => exact fail_ends (.notAnalysed (.wrote hopen))
  | ok completion =>
    have hanalysed := History.analysed completion elapsed (.wrote hopen) rfl
    refine tell_ends hanalysed rfl (tell_ends (.wrote hanalysed) rfl ?_)
    have hasked := History.wrote (.wrote hanalysed)
    refine ask_ends hasked fun answer elapsed => ?_
    cases answer with
    | error fault => exact fail_ends (.notPlanned hasked rfl)
    | ok planning =>
      cases hplan : Plan.parse planning.data with
      | error fault =>
        simp only [bind, Except.bind, hplan, Except.map]
        exact fail_ends (.notPlanned hasked hplan)
      | ok plan =>
        simp only [bind, Except.bind, hplan, Except.map]
        have hplanned := History.planned planning elapsed hasked hplan rfl
        exact tell_ends hplanned rfl (attempts_ends (.wrote hplanned))

end

end ContractConversion
