import ContractConversion.Audit.Record
import ContractConversion.Prompt
import ContractConversion.Session.Failure
import ContractConversion.Session.Settings
import ContractConversion.Session.State
import ContractConversion.Stream.Emitter

/-!
# The course of a session

A session analyses the source, plans the contracts and then generates and repairs them until all of
them are valid or its attempts are used up. What it does is a tree: each node asks one thing of the
surroundings and goes on with the answer. The tree says nothing about time; a session may be cut off
wherever it waits for an answer.

A session looks whether its reader is gone before each call to the outside, and learns it from each
event it writes. Then it ends without a terminal event.
-/

namespace ContractConversion

open Time (Instant)

/-- How a session ends of its own accord. -/
inductive Ending where
  | completed (result : ConversionResult)
  | failed (failure : SessionFailure) (phase : Option Nat)
  | cancelled
  deriving DecidableEq, Repr

/-- The terminal event of an ending. -/
def Ending.terminal? : Ending → Option Event
  | completed result => some (.done result)
  | failed failure phase => some (.error failure.message phase (some failure.detail))
  | cancelled => none

/-- What a session asks of its surroundings, one thing after the other. -/
inductive Course where
  | finish (ending : Ending)
  /-- Writes a progress event. -/
  | emit (event : Event) (next : Emitted → Course)
  /-- Announces an artifact. -/
  | announce (artifact : Artifact) (next : Emitted → Course)
  /-- Looks whether the reader is gone. -/
  | look (next : Bool → Course)
  /-- Requests a completion; it is answered after some milliseconds. -/
  | complete (request : CompletionRequest) (next : Except OracleFault Completion → Nat → Course)
  /-- Has code validated. -/
  | validate (code : String) (next : Except OracleFault Validation → Course)
  /-- Records an entry of the audit trail. -/
  | record (entry : AuditEntry) (next : Course)
  /-- Asks for the time. -/
  | now (next : Instant → Course)

/-- The artifact with the answer of the validator. A validator that cannot run finds nothing
valid. -/
def Artifact.judged (a : Artifact) : Except OracleFault Validation → Artifact
  | .ok (.valid size metadata) =>
    { a with validated := true, validationError := none, size := some size, metadata }
  | .ok (.invalid error) => { a with validated := false, validationError := some error }
  | .error fault =>
    { a with
      validated := false
      validationError := some ("validator unavailable: " ++ fault.message) }

namespace SessionState

/-- The state at the start of the next attempt. -/
def nextAttempt (s : SessionState) : SessionState :=
  { s with
    attempt := s.attempt + 1
    status := if s.attempt = 0 then .phase3 else .phase4 }

/-- The event that starts an attempt. -/
def attemptStart (s : SessionState) : Event :=
  if s.attempt = 1 then .phase3Start s.attempt
  else .phase4Start s.attempt (s.retryBatch.map (·.name))

/-- The request of an attempt: to generate everything until there are artifacts, and from then on to
repair those that are not valid. -/
def attemptRequest (s : SessionState) (source : String) : CompletionRequest :=
  match s.mode with
  | none => Prompt.generate source s.analysis s.plan
  | some mode => Prompt.repair mode s.retryBatch

/-- The result of a session whose artifacts are all valid. -/
def result (s : SessionState) (finishedAt : Instant) : ConversionResult where
  sessionId := s.id
  mode := s.mode.getD .single
  artifacts := s.artifacts
  transactions := s.plan.transactions
  deployment := s.deployment
  attempts := s.attempt
  usage := s.usage
  finishedAt := finishedAt

end SessionState

namespace Course

/-- Ends a session whose reader is gone. -/
def cancel (s : SessionState) : Course :=
  .record (.sessionFinished s.status s.attempt (some "cancelled")) (.finish .cancelled)

/-- Ends a session that failed. -/
def fail (s : SessionState) (failure : SessionFailure) : Course :=
  .record (.sessionFinished .error s.attempt (some failure.message))
    (.finish (.failed failure (failure.phase?.or s.status.phase?)))

/-- Ends a session whose artifacts are all valid. -/
def succeed (s : SessionState) : Course :=
  .now fun time =>
    .record (.sessionFinished .complete s.attempt none) (.finish (.completed (s.result time)))

/-- Writes an event and goes on if the reader is there. -/
def tell (s : SessionState) (event : Event) (next : Course) : Course :=
  .emit event fun
    | .disconnected => cancel s
    | _ => next

/-- Goes on if the reader is there. -/
def checkpoint (s : SessionState) (next : Course) : Course :=
  .look fun gone => if gone then cancel s else next

/-- Calls for a completion and keeps account of the call. -/
def call (s : SessionState) (request : CompletionRequest) (attempt : Option Nat)
    (next : SessionState → Except OracleFault Completion → Course) : Course :=
  .complete request fun answer elapsed =>
    let (usage, error) := match answer with
      | .ok completion => (completion.usage, none)
      | .error fault => (({} : Usage), some fault.message)
    .record (.oracleCall (s.status.phase?.getD 0) attempt elapsed usage error)
      (next { s with usage := s.usage + usage } answer)

/-- Validates the artifacts of the current attempt, in order; `checked` are the ones in front of
them, the last first. -/
def validateFrom (s : SessionState) (checked : List Artifact) :
    List Artifact → (SessionState → Course) → Course
  | [], next => next { s with artifacts := checked.reverse }
  | a :: rest, next =>
    if a.attempt = s.attempt ∧ a.validated = false then
      checkpoint s (.validate a.code fun answer =>
        validateFrom s (a.judged answer :: checked) rest next)
    else validateFrom s (a :: checked) rest next

/-- Announces artifacts, in order, and records each that is announced now. -/
def announceAll (s : SessionState) : List Artifact → Course → Course
  | [], next => next
  | a :: rest, next =>
    .announce a fun
      | .disconnected => cancel s
      | .wrote =>
        .record (.artifactPersisted a.name a.attempt a.size a.code.length) (announceAll s rest next)
      | _ => announceAll s rest next

/-- Validates, reports and announces the artifacts of an attempt, then ends the session if all of
them are valid. -/
def settle (s : SessionState) (next : SessionState → Course) : Course :=
  validateFrom s [] s.artifacts fun s =>
    tell s (.validation (.ofArtifacts s.attempt s.artifacts none)) <|
      announceAll s s.artifacts <|
        if s.allValid then succeed s else next s

/-- The attempts that are left; `lastError` is what the last one failed with. An attempt whose call
or answer is faulty is used up, one that cannot be merged ends the session. -/
def attempts (settings : Settings) (source : String) :
    Nat → SessionState → String → Course
  | 0, s, lastError => fail s (.attemptsExhausted settings.attempts lastError)
  | left + 1, s, lastError =>
    let s := s.nextAttempt
    tell s s.attemptStart <| checkpoint s <|
      call s (s.attemptRequest source) (some s.attempt) fun s answer =>
        match answer.mapError AttemptFault.oracle >>= fun c => s.applyOutput c.data with
        | .error (.merge fault) => fail s (.merge fault)
        | .error (.oracle fault) =>
          tell s (.validation (.ofArtifacts s.attempt s.artifacts (some fault.message))) <|
            attempts settings source left s fault.message
        | .ok s =>
          settle s fun s => attempts settings source left s (s.firstError?.getD lastError)

/-- The planning of contracts. -/
def plan (settings : Settings) (source : String) (s : SessionState) : Course :=
  let s := { s with status := .phase2 }
  tell s .phase2Start <| checkpoint s <| call s (Prompt.plan source s.analysis) none fun s answer =>
    match answer >>= fun c => (Plan.parse c.data).map (·, c.usage) with
    | .error fault => fail s (.oracle 2 fault)
    | .ok (plan, usage) =>
      let s := { s with plan }
      tell s (.phase2Complete plan.contracts plan.transactions usage) <|
        attempts settings source settings.attempts s "no generation attempt completed"

/-- The analysis of the source. -/
def analyse (settings : Settings) (source : String) (s : SessionState) : Course :=
  let s := { s with status := .phase1 }
  tell s (.phase1Start s.id) <| checkpoint s <| call s (Prompt.analysis source) none fun s answer =>
    match answer with
    | .error fault => fail s (.oracle 1 fault)
    | .ok completion =>
      let s := { s with analysis := completion.data }
      tell s (.phase1Complete completion.data completion.usage) (plan settings source s)

/-- A whole session. -/
def ofSource (settings : Settings) (id : Uuid) (source : String) : Course :=
  .record (.sessionStarted source.length) (analyse settings source { id })

end Course

end ContractConversion
