import ContractConversion.Proofs.Session.Delivery
import ContractConversion.Proofs.Session.Reports
import ContractConversion.Proofs.Session.Stepwise

/-!
# The calls of a session, seen from its log

What a log says of the calls to the outside: the requests for completions (`requestsIn`), what the
last reply reads as (`replyIn`), and the checks of an attempt with their outcome (`checksIn`,
`refusals`).

`History.calls` shows that the state of a session agrees with them at every point: there is one
request for each of the first two phases and one for each attempt, and what there is to repair is
what the validator refused in the last attempt in which something was checked.
-/

namespace ContractConversion

/-! ## Views of a log -/

namespace Event

/-- The analysis that the event tells. -/
def analysis? : Event → Option Json.Value
  | phase1Complete analysis _ => some analysis
  | _ => none

end Event

/-- The analysis that was told; null before that. -/
def analysisIn (events : List Event) : Json.Value :=
  events.foldl (fun analysis event => event.analysis?.getD analysis) .null

@[simp] lemma analysisIn_concat (events : List Event) (event : Event) :
    analysisIn (events ++ [event]) = event.analysis?.getD (analysisIn events) := by
  rw [analysisIn, List.foldl_concat, ← analysisIn]

namespace Generation

/-- Reads an answer in the mode that is fixed, or as a first one. -/
def read : Option Mode → Json.Value → Except OracleFault Generation
  | none, data => classify data
  | some mode, data => parseAs mode data

end Generation

namespace Step

/-- The request for a completion at this step. -/
def request? : Step → Option CompletionRequest
  | .called request _ => some request
  | _ => none

/-- The code that is handed to the validator at this step, and the answer if there is one. -/
def check? : Step → Option (String × Option (Except OracleFault Validation))
  | .validated code answer => some (code, answer)
  | _ => none

end Step

/-- The requests for completions along a log, the oldest first. -/
def requestsIn : List Step → List CompletionRequest
  | [] => []
  | step :: log => requestsIn log ++ step.request?.toList

lemma requestsIn_eq (log : List Step) : requestsIn log = log.reverse.filterMap Step.request? := by
  induction log with
  | nil => rfl
  | cons step rest ih =>
    rw [requestsIn, ih, List.reverse_cons, List.filterMap_append]
    cases h : step.request? <;> simp [h]

/-- The requests of a run are those along its log. -/
lemma Run.requests_eq (r : Run) : r.requests = requestsIn r.scene.steps := by
  have hrequest : ∀ step : Step, (match step with
      | .called request _ => some request
      | _ => none) = step.request? := fun step => by cases step <;> rfl
  rw [requestsIn_eq, scene, List.reverse_reverse, requests]
  exact List.filterMap_congr fun step _ => hrequest step

/-- What the answer to the last request reads as in an attempt. -/
def replyIn : List Step → Option (Except OracleFault Generation)
  | [] => none
  | .called _ answer :: log => answer.map (· >>= fun c => Generation.read (modeIn log) c.data)
  | _ :: log => replyIn log

/-- The checks in the attempt of number `n`, the oldest first. -/
def checksIn (n : ℕ) : List Step → List (String × Option (Except OracleFault Validation))
  | [] => []
  | step :: log =>
    checksIn n log ++ (if attemptIn (acceptedIn log) = n then step.check?.toList else [])

/-- The objection of an answer of the validator. A validator that cannot run objects, too. -/
def objection? : Except OracleFault Validation → Option String
  | .ok (.valid _ _) => none
  | .ok (.invalid error) => some error
  | .error fault => some ("validator unavailable: " ++ fault.message)

/-- The code that was refused in checks, with the objections. -/
def refusals (checks : List (String × Option (Except OracleFault Validation))) :
    List (String × String) :=
  checks.filterMap fun (code, answer) => (answer.bind objection?).map (code, ·)

section Views

variable {log : List Step} {n : ℕ}

lemma requestsIn_cons_of_none {step : Step} (h : step.request? = none) :
    requestsIn (step :: log) = requestsIn log := by
  rw [requestsIn, h, Option.toList_none, List.append_nil]

@[simp] lemma requestsIn_called (request : CompletionRequest)
    (answer : Option (Except OracleFault Completion)) :
    requestsIn (.called request answer :: log) = requestsIn log ++ [request] := rfl

/-- Only a request changes the last reply. -/
lemma replyIn_cons_of_none {step : Step} (h : step.request? = none) :
    replyIn (step :: log) = replyIn log := by
  cases step with
  | called request answer => exact absurd h (by simp [Step.request?])
  | _ => rfl

lemma checksIn_cons_of_none {step : Step} (h : step.check? = none) :
    checksIn n (step :: log) = checksIn n log := by
  rw [checksIn, h, Option.toList_none, ite_self, List.append_nil]

lemma checksIn_validated {code : String} {answer : Option (Except OracleFault Validation)}
    (h : attemptIn (acceptedIn log) = n) :
    checksIn n (.validated code answer :: log) = checksIn n log ++ [(code, answer)] := by
  rw [checksIn, if_pos h]
  rfl

lemma checksIn_validated_of_ne {code : String} {answer : Option (Except OracleFault Validation)}
    (h : attemptIn (acceptedIn log) ≠ n) :
    checksIn n (.validated code answer :: log) = checksIn n log := by
  rw [checksIn, if_neg h, List.append_nil]

section Exchange

variable {s : SessionState} {source : String} {quest : Quest} {elapsed : ℕ}
  {answer : Except OracleFault Completion}

@[simp] lemma requestsIn_exchange : requestsIn (s.exchange source quest answer elapsed log) =
    requestsIn log ++ [quest.request source s] := by
  rw [SessionState.exchange, requestsIn_cons_of_none rfl, requestsIn_called,
    requestsIn_cons_of_none rfl]

lemma replyIn_exchanged : replyIn (s.exchange source quest answer elapsed log) =
    some (answer >>= fun c => Generation.read (modeIn log) c.data) := by
  rw [SessionState.exchange, replyIn_cons_of_none rfl, replyIn, modeIn_cons_of_none rfl]
  rfl

@[simp] lemma checksIn_exchange :
    checksIn n (s.exchange source quest answer elapsed log) = checksIn n log := by
  rw [SessionState.exchange, checksIn_cons_of_none rfl, checksIn_cons_of_none rfl,
    checksIn_cons_of_none rfl]

end Exchange

lemma refusals_append (checks checks' : List (String × Option (Except OracleFault Validation))) :
    refusals (checks ++ checks') = refusals checks ++ refusals checks' :=
  List.filterMap_append

end Views

/-! ## What an attempt makes of its answer -/

namespace SessionState

variable {s s' : SessionState} {answer : Except OracleFault Completion}

/-- What an attempt reads an answer as. -/
def reading (s : SessionState) (answer : Except OracleFault Completion) :
    Except OracleFault Generation :=
  answer >>= fun completion => Generation.read s.mode completion.data

/-- Only an answer that can be read is taken in. -/
lemma reading_of_applied (h : s.applyAnswer answer = .ok s') :
    ∃ output, s.reading answer = .ok output := by
  obtain ⟨completion, hcompletion, h⟩ := bind_eq_ok.mp h
  obtain rfl := ok_of_mapError hcompletion
  cases hmode : s.mode with
  | none =>
    rw [applyOutput, charged, hmode] at h
    obtain ⟨output, houtput, -⟩ := bind_eq_ok.mp h
    exact ⟨output, by rw [reading, hmode]; exact ok_of_mapError houtput⟩
  | some mode =>
    rw [applyOutput, charged, hmode] at h
    obtain ⟨output, houtput, -⟩ := bind_eq_ok.mp h
    exact ⟨output, by rw [reading, hmode]; exact ok_of_mapError houtput⟩

/-- What cannot be taken in either cannot be read, or cannot be merged. -/
lemma reading_of_error {fault : AttemptFault} (h : s.applyAnswer answer = .error fault) :
    (∃ cause, fault = .oracle cause ∧ s.reading answer = .error cause) ∨
      ∃ cause mode output, fault = .merge cause ∧ s.mode = some mode ∧
        s.reading answer = .ok output ∧
        Repair.merge s.accepted (output.artifacts s.attempt s.plan.singleName) s.order =
          .error cause := by
  cases answer with
  | error cause =>
    obtain rfl := Except.error.inj h
    exact Or.inl ⟨cause, rfl, rfl⟩
  | ok completion =>
    have happly : (s.charged (.ok completion)).applyOutput completion.data = .error fault := h
    have hreading : s.reading (.ok completion) = Generation.read s.mode completion.data := rfl
    rw [hreading]
    cases hmode : s.mode with
    | none =>
      rw [applyOutput, charged, hmode] at happly
      rcases bind_eq_error.mp happly with houtput | ⟨output, -, hok⟩
      · obtain ⟨cause, hcause, rfl⟩ := mapError_eq_error.mp houtput
        exact Or.inl ⟨cause, rfl, hcause⟩
      · cases hok
    | some mode =>
      rw [applyOutput, charged, hmode] at happly
      rcases bind_eq_error.mp happly with houtput | ⟨output, houtput, happly⟩
      · obtain ⟨cause, hcause, rfl⟩ := mapError_eq_error.mp houtput
        exact Or.inl ⟨cause, rfl, hcause⟩
      · rcases bind_eq_error.mp happly with hmerge | ⟨artifacts, -, hok⟩
        · obtain ⟨cause, hcause, rfl⟩ := mapError_eq_error.mp hmerge
          exact Or.inr ⟨cause, mode, output, rfl, rfl, ok_of_mapError houtput, hcause⟩
        · cases hok

/-- A fault of the oracle that uses up an attempt is why the answer cannot be read. -/
lemma reading_of_spent {fault : OracleFault} (h : s.applyAnswer answer = .error (.oracle fault)) :
    s.reading answer = .error fault := by
  rcases reading_of_error h with ⟨cause, hcause, hreading⟩ | ⟨cause, mode, output, hcause, -⟩
  · obtain rfl := AttemptFault.oracle.inj hcause
    exact hreading
  · cases hcause

/-- The last reply is what the state reads it as. -/
lemma Tied.replyIn_exchange {source : String} {quest : Quest} {elapsed : ℕ} {log : List Step}
    (h : s.Tied log) :
    replyIn (s.exchange source quest answer elapsed log) = some (s.reading answer) := by
  rw [replyIn_exchanged, ← h.mode]
  rfl

end SessionState

/-! ## What is produced, and what is to be repaired -/

/-- The names of the blueprint that the last report does not call accepted. -/
def pendingIn (log : List Step) : List String :=
  (((blueprintIn log).map (·.names)).getD []).filter (· ∉ acceptedNamesIn (acceptedIn log))

/-- The artifacts that the reply of the attempt under way brings: one of each pending name, in
order. -/
structure Produced (log : List Step) (produced : List Artifact) : Prop where
  names : produced.map (·.name) = pendingIn log
  attempt : ∀ a ∈ produced, a.attempt = attemptIn (acceptedIn log)
  sourced : ∀ a ∈ produced, Sourced log a

/-- A report is about the attempt under way, for which a request was sent. If the report has an
error, it is why the reply cannot be read, and nothing was checked. Else the reply was read, and
each artifact that it brings was checked once, in order. -/
def Event.Accounts (log : List Step) : Event → Prop
  | validation report =>
    report.attempt = attemptIn (acceptedIn log) ∧ (requestsIn log).length = report.attempt + 2 ∧
      match report.error with
      | some message =>
        (∃ fault, replyIn log = some (.error fault) ∧ message = fault.message) ∧
          checksIn report.attempt log = []
      | none =>
        (∃ output, replyIn log = some (.ok output)) ∧ ∃ produced, Produced log produced ∧
          (checksIn report.attempt log).map (·.1) = produced.map (·.code) ∧
          report.artifacts.filter (·.attempt = report.attempt) = produced.map (·.status)
  | _ => True

/-! ## The state agrees with the calls -/

namespace SessionState

/-- So many requests were sent, and the state holds the analysis that was told. -/
structure Counts (s : SessionState) (n : ℕ) (log : List Step) : Prop where
  requests : (requestsIn log).length = n
  analysis : s.analysis = analysisIn (acceptedIn log)

/-- The last attempt in which something was checked has the number `m`, and what there is to repair
is what was refused there. -/
structure Checked (s : SessionState) (m : ℕ) (log : List Step) : Prop where
  later : ∀ n, m < n → checksIn n log = []
  attempt : ∀ a ∈ s.retryBatch, a.attempt = m
  refused : refusals (checksIn m log) = s.retryBatch.map fun a => (a.code, a.errorText)

/-- While artifacts are checked: the ones in front are those of the checks so far, and what the last
report does not call accepted belongs to the attempt under way. -/
structure Checking (s : SessionState) (checked todo : List Artifact) (log : List Step) : Prop where
  later : ∀ n, s.attempt < n → checksIn n log = []
  codes : (checksIn s.attempt log).map (·.1) =
    (checked.reverse.filter (·.attempt = s.attempt)).map (·.code)
  refused : refusals (checksIn s.attempt log) =
    (checked.reverse.filter fun a => !a.validated).map fun a => (a.code, a.errorText)
  accepted : ∀ a ∈ checked.reverse ++ todo,
    a.name ∈ acceptedNamesIn (acceptedIn log) ↔ a.attempt < s.attempt
  last : ∀ last, reportIn (acceptedIn log) = some last → last.attempt < s.attempt
  reply : ∃ output, replyIn log = some (.ok output)

variable {s s' : SessionState} {log : List Step} {n m : ℕ}

/-- Writing an event that tells no analysis. -/
lemma Counts.wrote {event : Event} (h : s.Counts n log) (hevent : event.analysis? = none) :
    s.Counts n (.emitted event (some .wrote) :: log) := by
  refine ⟨?_, ?_⟩
  · rw [requestsIn_cons_of_none rfl]
    exact h.requests
  · rw [acceptedIn_wrote, analysisIn_concat, hevent, Option.getD_none]
    exact h.analysis

lemma Counts.exchanged {source : String} {quest : Quest} {elapsed : ℕ}
    {answer : Except OracleFault Completion} (h : s.Counts n log) :
    s.Counts (n + 1) (s.exchange source quest answer elapsed log) := by
  refine ⟨?_, ?_⟩
  · rw [requestsIn_exchange, List.length_append, h.requests, List.length_singleton]
  · rw [acceptedIn_exchange]
    exact h.analysis

/-- A step at which nothing is written and no request is sent. -/
lemma Counts.quiet {step : Step} (h : s.Counts n log) (haccepted : step.accepted? = none)
    (hrequest : step.request? = none) : s.Counts n (step :: log) := by
  refine ⟨?_, ?_⟩
  · rw [requestsIn_cons_of_none hrequest]
    exact h.requests
  · rw [acceptedIn_cons_of_none haccepted]
    exact h.analysis

lemma Counts.of_state (h : s.Counts n log) (hanalysis : s'.analysis = s.analysis) :
    s'.Counts n log :=
  ⟨h.requests, hanalysis.trans h.analysis⟩

/-- A step at which nothing is checked. -/
lemma Checked.quiet {step : Step} (h : s.Checked m log) (hstep : step.check? = none) :
    s.Checked m (step :: log) := by
  refine ⟨fun n hn => ?_, h.attempt, ?_⟩
  · rw [checksIn_cons_of_none hstep]
    exact h.later n hn
  · rw [checksIn_cons_of_none hstep]
    exact h.refused

lemma Checked.exchanged {source : String} {quest : Quest} {elapsed : ℕ}
    {answer : Except OracleFault Completion} (h : s.Checked m log) :
    s.Checked m (s.exchange source quest answer elapsed log) :=
  ((h.quiet rfl).quiet rfl).quiet rfl

lemma Checked.of_state (h : s.Checked m log) (hartifacts : s'.artifacts = s.artifacts) :
    s'.Checked m log := by
  refine ⟨h.later, ?_, ?_⟩
  · rw [retryBatch, hartifacts]
    exact h.attempt
  · rw [retryBatch, hartifacts]
    exact h.refused

/-- Nothing is to be repaired where there are no artifacts. -/
lemma checked_of_fresh (hfresh : s.artifacts = []) (hchecks : ∀ n, checksIn n log = []) :
    s.Checked 0 log := by
  refine ⟨fun n _ => hchecks n, ?_, ?_⟩
  · simp [retryBatch, hfresh]
  · simp [retryBatch, hfresh, hchecks, refusals]

end SessionState

/-- What the calls along the log are at a point. -/
def Point.Calls : Point → List Step → Prop
  | writing event _ next, log =>
    event.Accounts log ∧ next.Calls (.emitted event (some .wrote) :: log)
  | asking .analysis s, log =>
    s.Counts 0 log ∧ s.Checked 0 log ∧ reportIn (acceptedIn log) = none
  | asking .plan s, log => s.Counts 1 log ∧ s.Checked 0 log ∧ reportIn (acceptedIn log) = none
  | asking (.attempt _ _) s, log =>
    s.Counts (s.attempt + 1) log ∧ (∃ m < s.attempt, s.Checked m log) ∧
      ∀ last, reportIn (acceptedIn log) = some last → last.attempt < s.attempt
  | checking _ _ s checked todo, log => s.Counts (s.attempt + 2) log ∧ s.Checking checked todo log
  | announcing _ _ s _, log =>
    s.Counts (s.attempt + 2) log ∧ s.Checked s.attempt log ∧
      ∀ last, reportIn (acceptedIn log) = some last → last.attempt ≤ s.attempt
  | failing _ _, _ | succeeding _, _ => True

section

variable {settings : Settings} {id : Uuid} {source : String} {s s' : SessionState}
  {log : List Step}

lemma analysis?_attemptStart (s : SessionState) : s.attemptStart.analysis? = none := by
  rw [SessionState.attemptStart]
  split <;> rfl

lemma report?_attemptStart (s : SessionState) : s.attemptStart.report? = none := by
  rw [SessionState.attemptStart]
  split <;> rfl

lemma accounts_attemptStart (s : SessionState) : s.attemptStart.Accounts log := by
  rw [SessionState.attemptStart]
  split <;> trivial

/-- The attempts that are left go on behind a report, or behind the plan. -/
lemma calls_attempts {left m : ℕ} {lastError : String} (hcounts : s.Counts (s.attempt + 2) log)
    (hm : m ≤ s.attempt) (hchecked : s.Checked m log)
    (hlast : ∀ last, reportIn (acceptedIn log) = some last → last.attempt ≤ s.attempt) :
    (Point.attempts settings left s lastError).Calls log := by
  cases left with
  | zero => trivial
  | succ left =>
    have hnext : s.nextAttempt.attempt = s.attempt + 1 := rfl
    -- the request of the next attempt is still to be sent
    have hcounts' : s.nextAttempt.Counts (s.nextAttempt.attempt + 1) log := hcounts.of_state rfl
    have hchecked' : s.nextAttempt.Checked m log := hchecked.of_state rfl
    refine ⟨accounts_attemptStart _, hcounts'.wrote (analysis?_attemptStart _),
      ⟨m, by omega, hchecked'.quiet rfl⟩, fun last hreport => ?_⟩
    rw [acceptedIn_wrote, reportIn_concat, report?_attemptStart, Option.none_or] at hreport
    exact Nat.lt_succ_of_le (hlast last hreport)

/-- What an attempt takes in is to be checked next. -/
lemma checking_applied {left elapsed : ℕ} {lastError : String}
    {answer : Except OracleFault Completion}
    (h : History settings id source (.asking (.attempt left lastError) s) log)
    (hcalls : (Point.asking (.attempt left lastError) s).Calls log)
    (happly : s.applyAnswer answer = .ok s') :
    s'.Checking [] s'.artifacts
      (s.exchange source (.attempt left lastError) answer elapsed log) := by
  obtain ⟨htied, hreported, hpos, -, hnew⟩ := h.tied
  obtain ⟨hcounts, ⟨m, hm, hchecked⟩, hlast⟩ := hcalls
  obtain ⟨output, houtput⟩ := SessionState.reading_of_applied happly
  obtain ⟨completion, rfl, htakes⟩ := takes_of_applyAnswer htied.wellFormed happly
  -- the last attempt with checks is an earlier one, so this one has none yet
  have hnone : ∀ n, s.attempt ≤ n → checksIn n log = [] := fun n hn => hchecked.later n (by omega)
  refine ⟨fun n hn => ?_, ?_, ?_, fun a ha => ?_, fun last hreport => ?_, output, ?_⟩
  · rw [checksIn_exchange, hnone n (by rw [← htakes.attempt]; omega)]
  · rw [checksIn_exchange, hnone _ (by rw [htakes.attempt])]
    rfl
  · rw [checksIn_exchange, hnone _ (by rw [htakes.attempt])]
    rfl
  · rw [acceptedIn_exchange, acceptedNamesIn_of_reported hreported, htakes.attempt,
      ← validated_iff_of_takes htakes hnew ha]
    constructor
    · intro hname
      obtain ⟨b, hb, hsame⟩ := List.mem_map.mp hname
      -- the names are distinct, so the artifact is the accepted one of its name
      obtain ⟨hb', hvalid⟩ := SessionState.mem_accepted.mp ((htakes.accepted b).mpr hb)
      rwa [← Repair.eq_of_name_eq htakes.wellFormed.nodup_names hb' ha hsame]
    · intro hvalid
      have hacc := (htakes.accepted a).mp (SessionState.mem_accepted.mpr ⟨ha, hvalid⟩)
      exact List.mem_map_of_mem hacc
  · rw [acceptedIn_exchange] at hreport
    rw [htakes.attempt]
    exact hlast last hreport
  · rw [htied.replyIn_exchange, houtput]

/-- What the validator is not due for was accepted in an earlier attempt. -/
lemma older_of_not_isDue {left : ℕ} {lastError : String} {a : Artifact}
    {checked todo : List Artifact}
    (h : History settings id source (.checking left lastError s checked (a :: todo)) log)
    (hdue : ¬ s.IsDue a) : a.attempt < s.attempt ∧ a.validated = true := by
  obtain ⟨htied, -, hold, hnew⟩ := h.tied
  have ha : a ∈ checked.reverse ++ a :: todo := List.mem_append_right _ List.mem_cons_self
  by_cases hvalid : a.validated = true
  · exact ⟨hnew a List.mem_cons_self hvalid, hvalid⟩
  · have hne : a.attempt ≠ s.attempt := fun heq => hdue ⟨heq, Bool.not_eq_true _ ▸ hvalid⟩
    exact absurd (hold a ha (Nat.lt_of_le_of_ne (htied.le_attempt a ha) hne)) hvalid

namespace SessionState

/-- Passing over an artifact of an earlier attempt. -/
lemma Checking.skipped {a : Artifact} {checked todo : List Artifact}
    (h : s.Checking checked (a :: todo) log) (hlt : a.attempt < s.attempt)
    (hvalid : a.validated = true) : s.Checking (a :: checked) todo log := by
  have hne : a.attempt ≠ s.attempt := Nat.ne_of_lt hlt
  refine ⟨h.later, ?_, ?_, fun b hb => h.accepted b ?_, h.last, h.reply⟩
  · rw [h.codes, List.reverse_cons, List.filter_append]
    simp [hne]
  · rw [h.refused, List.reverse_cons, List.filter_append]
    simp [hvalid]
  · rwa [List.reverse_cons, List.append_assoc] at hb

/-- The validator answers on an artifact of the attempt under way. -/
lemma Checking.judged {a : Artifact} {checked todo : List Artifact}
    {answer : Except OracleFault Validation} (h : s.Checking checked (a :: todo) log)
    (hattempt : s.attempt = attemptIn (acceptedIn log)) (hdue : a.attempt = s.attempt) :
    s.Checking (a.judged answer :: checked) todo
      (.validated a.code (some answer) :: .looked false :: log) := by
  have hin : attemptIn (acceptedIn (.looked false :: log)) = s.attempt := by
    rw [acceptedIn_looked, hattempt]
  refine ⟨fun n hn => ?_, ?_, ?_, fun b hb => ?_, fun last hreport => ?_, ?_⟩
  · rw [checksIn_validated_of_ne (by rw [hin]; exact Nat.ne_of_lt hn), checksIn_cons_of_none rfl]
    exact h.later n hn
  · rw [checksIn_validated hin, checksIn_cons_of_none rfl, List.map_append, h.codes,
      List.reverse_cons, List.filter_append]
    simp [hdue]
  · rw [checksIn_validated hin, checksIn_cons_of_none rfl, refusals_append, h.refused,
      List.reverse_cons, List.filter_append, List.map_append]
    rcases answer with fault | ⟨size, metadata⟩ | error <;> rfl
  · rw [acceptedIn_validated, acceptedIn_looked]
    rw [List.reverse_cons, List.append_assoc] at hb
    rcases List.mem_append.mp hb with hb | hb
    · exact h.accepted b (List.mem_append_left _ hb)
    · rcases List.mem_cons.mp hb with rfl | hb
      · rw [a.judged_name, a.judged_attempt]
        exact h.accepted a (List.mem_append_right _ List.mem_cons_self)
      · exact h.accepted b (List.mem_append_right _ (List.mem_cons_of_mem _ hb))
  · rw [acceptedIn_validated, acceptedIn_looked] at hreport
    exact h.last last hreport
  · rw [replyIn_cons_of_none rfl, replyIn_cons_of_none rfl]
    exact h.reply

end SessionState

/-- While artifacts are checked, those of the attempt under way are what its reply brings. -/
lemma produced_of_checking {left : ℕ} {lastError : String} {checked todo : List Artifact}
    (h : History settings id source (.checking left lastError s checked todo) log)
    (hchecking : s.Checking checked todo log) :
    Produced log ((checked.reverse ++ todo).filter (·.attempt = s.attempt)) := by
  obtain ⟨htied, -⟩ := h.tied
  have hkeeps : ({ s with artifacts := checked.reverse ++ todo } : SessionState).Keeps log :=
    h.keeps.1.of_state rfl rfl rfl
  refine ⟨?_, fun a ha => ?_, fun a ha => (h.proven a (List.mem_of_mem_filter ha)).sourced⟩
  · rw [pendingIn, hkeeps.names htied.wellFormed, Repair.names, List.filter_map]
    -- what does not belong to the attempt under way belongs to an earlier one, and was accepted
    refine congrArg _ (List.filter_congr fun a ha => ?_)
    have hle := htied.le_attempt a ha
    have hlt := hchecking.accepted a ha
    by_cases heq : a.attempt = s.attempt
    · simp [hlt, heq]
    · have : a.attempt < s.attempt := Nat.lt_of_le_of_ne hle heq
      simp [hlt, heq, this]
  · have hattempt : s.attempt = attemptIn (acceptedIn log) := htied.attempt
    rw [← hattempt]
    simpa using (List.mem_filter.mp ha).2

/-- Once all artifacts are checked, the report accounts for the checks. -/
lemma accounts_checked {left : ℕ} {lastError : String} {checked : List Artifact}
    (h : History settings id source (.checking left lastError s checked []) log)
    (hcounts : s.Counts (s.attempt + 2) log) (hchecking : s.Checking checked [] log) :
    (({ s with artifacts := checked.reverse } : SessionState).report none).Accounts log := by
  have hproduced := produced_of_checking h hchecking
  rw [List.append_nil] at hproduced
  refine ⟨h.tied.1.attempt, hcounts.requests, hchecking.reply, _, hproduced, hchecking.codes, ?_⟩
  show (checked.reverse.map (·.status)).filter _ = _
  rw [List.filter_map]
  rfl

/-- Once all artifacts are checked, what is to be repaired is what was refused. -/
lemma checked_of_checking {left : ℕ} {lastError : String} {checked : List Artifact}
    (h : History settings id source (.checking left lastError s checked []) log)
    (hchecking : s.Checking checked [] log) :
    ({ s with artifacts := checked.reverse } : SessionState).Checked s.attempt log := by
  obtain ⟨htied, -, hold, -⟩ := h.tied
  rw [List.append_nil] at htied hold
  refine ⟨hchecking.later, fun a ha => ?_, hchecking.refused⟩
  obtain ⟨ha, hvalid⟩ := List.mem_filter.mp ha
  have hle : a.attempt ≤ s.attempt := htied.le_attempt a ha
  -- an artifact of an earlier attempt would be validated
  by_contra hne
  rw [hold a ha (Nat.lt_of_le_of_ne hle hne)] at hvalid
  exact absurd hvalid (by simp)

/-- **At every point of a session its state agrees with the calls along its log.** -/
theorem History.calls {point : Point} (h : History settings id source point log) :
    point.Calls log := by
  induction h with
  | opened =>
    have hnone : ∀ n, checksIn n [.emitted (.phase1Start id) (some .wrote),
        .recorded (.sessionStarted source.length)] = [] := fun n => by
      rw [checksIn_cons_of_none rfl, checksIn_cons_of_none rfl, checksIn]
    exact ⟨trivial, ⟨rfl, rfl⟩, SessionState.checked_of_fresh rfl hnone, rfl⟩
  | wrote h ih => exact ih.2
  | analysed completion elapsed h hs ih =>
    obtain ⟨hcounts, hchecked, hreport⟩ := ih
    subst hs
    refine ⟨trivial, trivial, ⟨?_, ?_⟩, ?_, ?_⟩
    · rw [requestsIn_cons_of_none rfl, requestsIn_cons_of_none rfl]
      exact hcounts.exchanged.requests
    · rw [acceptedIn_wrote, acceptedIn_wrote, analysisIn_concat, analysisIn_concat]
      rfl
    · exact .of_state (.quiet (.quiet hchecked.exchanged rfl) rfl) rfl
    · rw [acceptedIn_wrote, acceptedIn_wrote, acceptedIn_exchange, reportIn_concat, reportIn_concat,
        hreport]
      rfl
  | notAnalysed h ih => trivial
  | @planned s s' log plan completion elapsed h hplan hs ih =>
    obtain ⟨hcounts, hchecked, hreport⟩ := ih
    obtain ⟨-, -, hzero, -⟩ := h.tied
    subst hs
    have hcounts' : s.Counts (s.attempt + 2)
        (.emitted (.phase2Complete plan.contracts plan.transactions completion.usage)
          (some .wrote) :: s.exchange source .plan (.ok completion) elapsed log) := by
      rw [hzero]
      exact hcounts.exchanged.wrote rfl
    refine ⟨trivial, calls_attempts (.of_state hcounts' rfl) (Nat.zero_le _)
      (.of_state (.quiet hchecked.exchanged rfl) rfl) fun last hlast => ?_⟩
    -- no attempt was made, so there is no report
    rw [acceptedIn_wrote, acceptedIn_exchange, reportIn_concat, hreport] at hlast
    cases hlast
  | notPlanned h hplan ih => trivial
  | @applied s s' log answer elapsed left lastError h happly ih =>
    obtain ⟨-, hattempt, hanalysis, -⟩ := frame_of_applyAnswer happly
    refine ⟨?_, checking_applied h ih happly⟩
    rw [hattempt]
    exact .of_state ih.1.exchanged hanalysis
  | @spent s log answer fault left lastError elapsed h happly ih =>
    obtain ⟨hcounts, ⟨m, hm, hchecked⟩, -⟩ := ih
    have hcounts' : (s.charged answer).Counts ((s.charged answer).attempt + 2)
        (s.exchange source (.attempt left lastError) answer elapsed log) :=
      .of_state hcounts.exchanged rfl
    have hchecked' : (s.charged answer).Checked m
        (s.exchange source (.attempt left lastError) answer elapsed log) :=
      .of_state hchecked.exchanged rfl
    have htied := h.tied.1
    refine ⟨⟨?_, hcounts'.requests, ⟨fault, ?_, rfl⟩, hchecked'.later _ hm⟩,
      calls_attempts (hcounts'.wrote rfl) (Nat.le_of_lt hm) (hchecked'.quiet rfl) ?_⟩
    · rw [acceptedIn_exchange]
      exact htied.attempt
    · rw [htied.replyIn_exchange, SessionState.reading_of_spent happly]
    · intro last hlast
      rw [acceptedIn_wrote, reportIn_concat] at hlast
      obtain rfl := Option.some.inj hlast
      exact Nat.le_refl _
  | unmerged h happly ih => trivial
  | skipped h hdue ih =>
    obtain ⟨hlt, hvalid⟩ := older_of_not_isDue h hdue
    exact ⟨ih.1, ih.2.skipped hlt hvalid⟩
  | judged h hdue ih =>
    refine ⟨(ih.1.quiet rfl rfl).quiet rfl rfl, ih.2.judged h.tied.1.attempt hdue.1⟩
  | checked h hs ih =>
    obtain ⟨hcounts, hchecking⟩ := ih
    subst hs
    refine ⟨accounts_checked h hcounts hchecking, .of_state (hcounts.wrote rfl) rfl,
      (checked_of_checking h hchecking).quiet rfl, fun last hreport => ?_⟩
    rw [acceptedIn_wrote, reportIn_concat] at hreport
    obtain rfl := Option.some.inj hreport
    exact Nat.le_refl _
  | announced h ha ih =>
    obtain ⟨hcounts, hchecked, hlast⟩ := ih
    refine ⟨⟨?_, ?_⟩, (hchecked.quiet rfl).quiet rfl, ?_⟩
    · rw [requestsIn_cons_of_none rfl, requestsIn_cons_of_none rfl]
      exact hcounts.requests
    · rw [acceptedIn_recorded, acceptedIn_announced, analysisIn_concat]
      exact hcounts.analysis
    · rw [acceptedIn_recorded, acceptedIn_announced, reportIn_concat]
      exact hlast
  | passedOver h ha ih =>
    obtain ⟨hcounts, hchecked, hlast⟩ := ih
    refine ⟨hcounts.quiet rfl rfl, hchecked.quiet rfl, ?_⟩
    rw [acceptedIn_passedOver]
    exact hlast
  | succeeded h hvalid ih => trivial
  | retried h hvalid ih => exact calls_attempts ih.1 (Nat.le_refl _) ih.2.1 ih.2.2

end

end ContractConversion
