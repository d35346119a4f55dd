import ContractConversion.Proofs.Session.Events
import ContractConversion.Proofs.Session.Execution
import Mathlib.Data.List.Induction

/-!
# The reports of a session

The first reply of the attempts that can be classified is the blueprint of a session: it fixes the
names of the artifacts and their order, the mode and the deployment data (`blueprintIn`). Later
replies change none of it:

* every report lists exactly the names of the blueprint, or nothing as long as there is none, and
  what one report calls validated, the next one calls validated in the same attempt;
* a further attempt retries exactly what the last report does not call validated;
* the result has the names, the mode and the deployment data of the blueprint.

The invariant is `Point.Keeps`: the state of a session agrees with the blueprint, the plan and the
identifier that its log tells, and an event that is about to be written goes on with what was
reported before (`Event.Continues`).
-/

namespace ContractConversion

/-! ## Views of events -/

namespace Event

/-- The plan that the event tells. -/
def plan? : Event → Option Plan
  | phase2Complete contracts transactions _ => some { contracts, transactions }
  | _ => none

/-- The identifier of the session that the event tells. -/
def sessionId? : Event → Option Uuid
  | phase1Start id => some id
  | _ => none

/-- The report that the event gives. -/
def report? : Event → Option Report
  | validation report => some report
  | _ => none

end Event

/-- The plan that was told; an empty one before that. -/
def planIn (events : List Event) : Plan :=
  events.foldl (fun plan event => event.plan?.getD plan) {}

/-- The identifier that was told. -/
def sessionIdIn (events : List Event) : Option Uuid :=
  events.foldl (fun id event => event.sessionId?.or id) none

/-- The last report. -/
def reportIn (events : List Event) : Option Report :=
  events.foldl (fun report event => event.report?.or report) none

@[simp] lemma planIn_concat (events : List Event) (event : Event) :
    planIn (events ++ [event]) = event.plan?.getD (planIn events) := by
  rw [planIn, List.foldl_concat, ← planIn]

@[simp] lemma sessionIdIn_concat (events : List Event) (event : Event) :
    sessionIdIn (events ++ [event]) = event.sessionId?.or (sessionIdIn events) := by
  rw [sessionIdIn, List.foldl_concat, ← sessionIdIn]

@[simp] lemma reportIn_concat (events : List Event) (event : Event) :
    reportIn (events ++ [event]) = event.report?.or (reportIn events) := by
  rw [reportIn, List.foldl_concat, ← reportIn]

/-- What was reported last is what the last report lists. -/
lemma reportedIn_eq (events : List Event) :
    reportedIn events = ((reportIn events).map (·.artifacts)).getD [] := by
  induction events using List.reverseRecOn with
  | nil => rfl
  | append_singleton events event ih =>
    rw [reportedIn_concat, reportIn_concat, ih]
    cases event <;> rfl

/-! ## The blueprint -/

/-- What the first reply fixes for a session. -/
structure Blueprint where
  names : List String
  mode : Mode
  deployment : Option Json.Value
  deriving DecidableEq

namespace Generation

/-- The names of the artifacts of an answer. -/
def names (singleName : String) : Generation → List String
  | single _ => [singleName]
  | multi contracts _ => contracts.map (·.name)

/-- What an answer fixes if it is the first one, under a plan. -/
def blueprint (plan : Plan) (output : Generation) : Blueprint :=
  ⟨output.names plan.singleName, output.mode, output.deployment⟩

lemma names_artifacts (output : Generation) (attempt : ℕ) (singleName : String) :
    Repair.names (output.artifacts attempt singleName) = output.names singleName := by
  cases output with
  | single code => rfl
  | multi contracts deployment => exact names_artifactsFrom attempt contracts 0

/-- A first answer that can be classified has artifacts, and their names are distinct. -/
lemma names_of_classify {data : Json.Value} {output : Generation} (h : classify data = .ok output)
    (singleName : String) : output.names singleName ≠ [] ∧ (output.names singleName).Nodup := by
  obtain ⟨r, hr, h⟩ := bind_eq_ok.mp h
  split at h
  · next c rest hcontracts =>
    split at h
    · exact absurd h throw_ne_ok
    · next hfault =>
      obtain rfl := Except.ok.inj h
      exact ⟨List.cons_ne_nil _ _, (nodup_of_nameFault? hfault).1⟩
  · obtain rfl := Except.ok.inj h
    exact ⟨List.cons_ne_nil _ _, List.nodup_singleton _⟩
  · exact absurd h throw_ne_ok

end Generation

/-- The answer in the reply to a call, read as a first one. -/
def Step.generation? : Step → Option Generation
  | .called _ (some (.ok completion)) => (Generation.classify completion.data).toOption
  | _ => none

/-- The blueprint that the replies in the attempts fixed; the first one that can be classified
counts. -/
def blueprintIn : List Step → Option Blueprint
  | [] => none
  | step :: log => (blueprintIn log).or
    (if attemptIn (acceptedIn log) = 0 then none
      else step.generation?.map (·.blueprint (planIn (acceptedIn log))))

section

variable {log : List Step}

/-- Only a reply can fix the blueprint. -/
lemma blueprintIn_cons_of_none {step : Step} (h : step.generation? = none) :
    blueprintIn (step :: log) = blueprintIn log := by
  rw [blueprintIn, h, Option.map_none, ite_self, Option.or_none]

/-- An exchange fixes the blueprint if it is the first reply of the attempts that can be
classified. -/
lemma blueprintIn_exchange {s : SessionState} {source : String} {quest : Quest} {elapsed : ℕ}
    {answer : Except OracleFault Completion} :
    blueprintIn (s.exchange source quest answer elapsed log) =
      (blueprintIn log).or (if attemptIn (acceptedIn log) = 0 then none else
        (Step.generation? (.called (quest.request source s) (some answer))).map
          (·.blueprint (planIn (acceptedIn log)))) := by
  rw [SessionState.exchange, blueprintIn_cons_of_none rfl, blueprintIn,
    blueprintIn_cons_of_none rfl, acceptedIn_looked]

/-- A blueprint that is fixed stays. -/
lemma blueprintIn_of_suffix {earlier : List Step} {b : Blueprint} (h : earlier <:+ log)
    (hb : blueprintIn earlier = some b) : blueprintIn log = some b := by
  obtain ⟨tail, rfl⟩ := h
  induction tail with
  | nil => exact hb
  | cons step rest ih => rw [List.cons_append, blueprintIn, ih, Option.some_or]

/-- A blueprint is that of a reply. -/
lemma reply_of_blueprintIn {b : Blueprint} (h : blueprintIn log = some b) :
    ∃ request completion output plan, .called request (some (.ok completion)) ∈ log ∧
      Generation.classify completion.data = .ok output ∧ b = output.blueprint plan := by
  induction log with
  | nil => exact absurd h (by simp [blueprintIn])
  | cons step rest ih =>
    rw [blueprintIn] at h
    rcases Option.or_eq_some_iff.mp h with h | ⟨-, h⟩
    · obtain ⟨request, completion, output, plan, hmem, hfixed⟩ := ih h
      exact ⟨request, completion, output, plan, List.mem_cons_of_mem _ hmem, hfixed⟩
    · split at h
      · exact absurd h (by simp)
      · obtain ⟨output, houtput, rfl⟩ := Option.map_eq_some_iff.mp h
        cases step with
        | called request answer =>
          rcases answer with _ | fault | completion
          · exact absurd houtput (by simp [Step.generation?])
          · exact absurd houtput (by simp [Step.generation?])
          · cases hclassify : Generation.classify completion.data with
            | error fault => simp [Step.generation?, hclassify, Except.toOption] at houtput
            | ok output' =>
              rw [Step.generation?, hclassify] at houtput
              obtain rfl := Option.some.inj houtput
              exact ⟨request, completion, output', _, List.mem_cons_self, hclassify, rfl⟩
        | _ => exact absurd houtput (by simp [Step.generation?])

/-- A blueprint has names, and they are distinct. -/
lemma names_of_blueprintIn {b : Blueprint} (h : blueprintIn log = some b) :
    b.names ≠ [] ∧ b.names.Nodup := by
  obtain ⟨-, completion, output, plan, -, hclassify, rfl⟩ := reply_of_blueprintIn h
  exact Generation.names_of_classify hclassify _

end

/-! ## The state agrees with the blueprint -/

namespace SessionState

/-- The blueprint that the state holds. -/
def blueprint? (s : SessionState) : Option Blueprint :=
  s.mode.map fun mode => ⟨s.order, mode, s.deployment⟩

/-- An answer that is taken in fixes the blueprint if it is the first one. -/
lemma blueprint_of_applyOutput {s s' : SessionState} {data : Json.Value}
    (h : s.applyOutput data = .ok s') : s'.id = s.id ∧ s'.plan = s.plan ∧
      s'.blueprint? =
        s.blueprint?.or ((Generation.classify data).toOption.map (·.blueprint s.plan)) := by
  cases hmode : s.mode with
  | none =>
    rw [applyOutput, hmode] at h
    obtain ⟨output, houtput, h⟩ := bind_eq_ok.mp h
    obtain rfl := Except.ok.inj h
    have hnames := output.names_artifacts s.attempt s.plan.singleName
    rw [Repair.names] at hnames
    refine ⟨rfl, rfl, ?_⟩
    rw [ok_of_mapError houtput]
    simp [blueprint?, hmode, Except.toOption, Generation.blueprint, hnames]
  | some mode =>
    rw [applyOutput, hmode] at h
    obtain ⟨output, -, h⟩ := bind_eq_ok.mp h
    obtain ⟨merged, -, h⟩ := bind_eq_ok.mp h
    obtain rfl := Except.ok.inj h
    exact ⟨rfl, rfl, by simp [blueprint?, hmode]⟩

/-- An answer that cannot be taken in fixes no blueprint. -/
lemma blueprint_of_applyOutput_error {s : SessionState} {data : Json.Value} {fault : AttemptFault}
    (h : s.applyOutput data = .error fault) :
    s.blueprint?.or ((Generation.classify data).toOption.map (·.blueprint s.plan)) =
      s.blueprint? := by
  have hmode := mode_of_applyOutput_error h
  cases hs : s.mode with
  | some mode => simp [blueprint?, hs]
  | none =>
    rw [hs, Option.none_or, Generation.modeOf?, Option.map_eq_none_iff] at hmode
    rw [hmode, Option.map_none, Option.or_none]

/-- The state has the identifier, the plan and the blueprint that the log tells. -/
structure Keeps (s : SessionState) (log : List Step) : Prop where
  id : sessionIdIn (acceptedIn log) = some s.id
  plan : s.plan = planIn (acceptedIn log)
  blueprint : s.blueprint? = blueprintIn log

section

variable {s s' : SessionState} {log : List Step}

/-- A state of the same identifier, plan and blueprint. -/
lemma Keeps.of_state (h : s.Keeps log) (hid : s'.id = s.id) (hplan : s'.plan = s.plan)
    (hblueprint : s'.blueprint? = s.blueprint?) : s'.Keeps log :=
  ⟨hid ▸ h.id, hplan.trans h.plan, hblueprint.trans h.blueprint⟩

/-- Writing an event that tells neither an identifier nor a plan. -/
lemma Keeps.wrote {event : Event} (h : s.Keeps log) (hid : event.sessionId? = none)
    (hplan : event.plan? = none) : s.Keeps (.emitted event (some .wrote) :: log) := by
  refine ⟨?_, ?_, h.blueprint.trans (blueprintIn_cons_of_none rfl).symm⟩
  · rw [acceptedIn_wrote, sessionIdIn_concat, hid, Option.none_or]
    exact h.id
  · rw [acceptedIn_wrote, planIn_concat, hplan, Option.getD_none]
    exact h.plan

/-- A step at which nothing was accepted and no reply came. -/
lemma Keeps.quiet {step : Step} (h : s.Keeps log) (haccepted : step.accepted? = none)
    (hgeneration : step.generation? = none) : s.Keeps (step :: log) := by
  refine ⟨?_, ?_, h.blueprint.trans (blueprintIn_cons_of_none hgeneration).symm⟩
  · rw [acceptedIn_cons_of_none haccepted]
    exact h.id
  · rw [acceptedIn_cons_of_none haccepted]
    exact h.plan

/-- A reply before the first attempt fixes no blueprint. -/
lemma Keeps.exchanged {source : String} {quest : Quest} {answer : Except OracleFault Completion}
    {elapsed : ℕ} (h : s.Keeps log) (hzero : attemptIn (acceptedIn log) = 0) :
    s.Keeps (s.exchange source quest answer elapsed log) := by
  refine ⟨?_, ?_, ?_⟩
  · rw [acceptedIn_exchange]
    exact h.id
  · rw [acceptedIn_exchange]
    exact h.plan
  · rw [blueprintIn_exchange, if_pos hzero, Option.or_none]
    exact h.blueprint

/-- An attempt that takes in an answer has the blueprint that the answer fixes. -/
lemma Keeps.applied {source : String} {quest : Quest} {answer : Except OracleFault Completion}
    {elapsed : ℕ} (h : s.Keeps log) (hpos : attemptIn (acceptedIn log) ≠ 0)
    (happly : s.applyAnswer answer = .ok s') :
    s'.Keeps (s.exchange source quest answer elapsed log) := by
  obtain ⟨completion, hcompletion, happly⟩ := bind_eq_ok.mp happly
  obtain rfl := ok_of_mapError hcompletion
  obtain ⟨hid, hplan, hblueprint⟩ := blueprint_of_applyOutput happly
  refine ⟨?_, ?_, ?_⟩
  · rw [acceptedIn_exchange, hid]
    exact h.id
  · rw [acceptedIn_exchange, hplan]
    exact h.plan
  · rw [blueprintIn_exchange, if_neg hpos, ← h.blueprint, ← h.plan]
    exact hblueprint

/-- An attempt that cannot take in its answer keeps the blueprint. -/
lemma Keeps.charged {source : String} {quest : Quest} {answer : Except OracleFault Completion}
    {elapsed : ℕ} {fault : AttemptFault} (h : s.Keeps log)
    (hpos : attemptIn (acceptedIn log) ≠ 0) (happly : s.applyAnswer answer = .error fault) :
    (s.charged answer).Keeps (s.exchange source quest answer elapsed log) := by
  refine ⟨?_, ?_, ?_⟩
  · rw [acceptedIn_exchange]
    exact h.id
  · rw [acceptedIn_exchange]
    exact h.plan
  · rw [blueprintIn_exchange, if_neg hpos, ← h.blueprint, ← h.plan]
    cases answer with
    | error fault => exact (Option.or_none).symm
    | ok completion =>
      have hsame : (s.charged (.ok completion)).applyOutput completion.data = .error fault := happly
      exact (blueprint_of_applyOutput_error hsame).symm

/-- The names of the blueprint are those of the artifacts. -/
lemma Keeps.names (h : s.Keeps log) (hwell : s.WellFormed) :
    ((blueprintIn log).map (·.names)).getD [] = Repair.names s.artifacts := by
  rw [← h.blueprint, blueprint?, Option.map_map]
  cases hmode : s.mode with
  | none => simp [hwell.fresh hmode, Repair.names]
  | some mode => simp [hwell.names]

/-- A session whose artifacts are all validated has a blueprint, with its own mode and deployment
data. -/
lemma Keeps.exists_blueprint (h : s.Keeps log) (hwell : s.WellFormed) (hvalid : s.allValid = true) :
    ∃ mode, s.mode = some mode ∧ blueprintIn log = some ⟨s.order, mode, s.deployment⟩ := by
  cases hmode : s.mode with
  | none =>
    -- without a blueprint there are no artifacts, so it is not that all of them are validated
    exact absurd hvalid (by simp [allValid, hwell.fresh hmode])
  | some mode =>
    refine ⟨mode, rfl, ?_⟩
    rw [← h.blueprint, blueprint?, hmode, Option.map_some]

end

end SessionState

/-! ## What is written goes on with what was reported -/

/-- A report lists the names of the blueprint and still calls validated what the last one does. A
further attempt retries what the last report does not call validated. -/
def Event.Continues (log : List Step) : Event → Prop
  | validation report =>
    report.artifacts.map (·.name) = ((blueprintIn log).map (·.names)).getD [] ∧
      ∀ last, reportIn (acceptedIn log) = some last →
        ∀ line ∈ last.artifacts, line.validated = true → line ∈ report.artifacts
  | phase4Start _ retrying =>
    ∃ last, reportIn (acceptedIn log) = some last ∧
      retrying = (last.artifacts.filter fun line => !line.validated).map (·.name)
  | _ => True

/-- What the state and the log have in common at a point. What the last report calls validated
belongs to an earlier attempt while artifacts are checked. -/
def Point.Keeps : Point → List Step → Prop
  | writing event _ next, log =>
    event.Continues log ∧ next.Keeps (.emitted event (some .wrote) :: log)
  | checking _ _ s checked todo, log =>
    s.Keeps log ∧ ∀ line ∈ reportedIn (acceptedIn log), line.validated = true →
      ∃ a ∈ checked.reverse ++ todo, a.attempt < s.attempt ∧ a.status = line
  | announcing _ _ s _, log =>
    s.Keeps log ∧ (reportIn (acceptedIn log)).isSome
  | asking _ s, log | succeeding s, log => s.Keeps log
  | failing _ _, _ => True

section

variable {settings : Settings} {id : Uuid} {source : String} {s : SessionState} {log : List Step}

/-- The lines of a state's artifacts that are not validated name what there is to repair. -/
lemma SessionState.names_retryBatch (s : SessionState) :
    s.retryBatch.map (·.name) =
      ((s.artifacts.map (·.status)).filter fun line => !line.validated).map (·.name) := by
  rw [SessionState.retryBatch, List.filter_map, List.map_map]
  rfl

/-- Behind a report, or before the first attempt, the attempts that are left go on. -/
lemma keeps_attempts {left : ℕ} {lastError : String} (h : s.Keeps log)
    (hreported : s.IsReported log) (hlast : s.attempt ≠ 0 → (reportIn (acceptedIn log)).isSome) :
    (Point.attempts settings left s lastError).Keeps log := by
  cases left with
  | zero => trivial
  | succ left =>
    have hnext : s.nextAttempt.Keeps log := h.of_state rfl rfl rfl
    by_cases hzero : s.attempt = 0
    · have hstart : s.nextAttempt.attemptStart = .phase3Start s.nextAttempt.attempt :=
        if_pos (congrArg (· + 1) hzero)
      exact ⟨hstart ▸ trivial, hstart ▸ hnext.wrote rfl rfl⟩
    · have hstart : s.nextAttempt.attemptStart =
          .phase4Start s.nextAttempt.attempt (s.nextAttempt.retryBatch.map (·.name)) :=
        if_neg fun h => hzero (Nat.succ.inj h)
      obtain ⟨last, hsome⟩ := Option.isSome_iff_exists.mp (hlast hzero)
      have hlines : last.artifacts = s.nextAttempt.artifacts.map (·.status) := by
        rw [SessionState.IsReported, reportedIn_eq, hsome] at hreported
        exact hreported
      refine ⟨hstart ▸ ⟨last, hsome, ?_⟩, hstart ▸ hnext.wrote rfl rfl⟩
      rw [hlines, SessionState.names_retryBatch]

/-- The report on a state lists the names of its blueprint. -/
lemma continues_report {error : Option String} (h : s.Keeps log) (hwell : s.WellFormed)
    (hlines : ∀ line ∈ reportedIn (acceptedIn log), line.validated = true →
      line ∈ s.artifacts.map (·.status)) : (s.report error).Continues log := by
  refine ⟨?_, fun last hlast line hline hvalid => hlines line ?_ hvalid⟩
  · rw [h.names hwell, Repair.names]
    exact List.map_map
  · rw [reportedIn_eq, hlast]
    exact hline

/-- What was validated before an answer was taken in still is. -/
lemma kept_applied {answer : Except OracleFault Completion} {s' : SessionState}
    (hwell : s.WellFormed) (hnew : ∀ a ∈ s.artifacts, a.attempt < s.attempt)
    (happly : s.applyAnswer answer = .ok s') {line : ArtifactStatus}
    (hline : line ∈ s.artifacts.map (·.status)) (hvalid : line.validated = true) :
    ∃ a ∈ s'.artifacts, a.attempt < s'.attempt ∧ a.status = line := by
  obtain ⟨completion, rfl, htakes⟩ := takes_of_applyAnswer hwell happly
  obtain ⟨a, ha, rfl⟩ := List.mem_map.mp hline
  have hacc := (htakes.accepted a).mpr (SessionState.mem_accepted.mpr ⟨ha, hvalid⟩)
  exact ⟨a, (SessionState.mem_accepted.mp hacc).1, htakes.attempt.symm ▸ hnew a ha, rfl⟩

/-- **At every point of a session its state agrees with the blueprint, and what it writes goes on
with what was reported.** -/
theorem History.keeps {point : Point} (h : History settings id source point log) :
    point.Keeps log := by
  induction h with
  | opened => exact ⟨trivial, rfl, rfl, rfl⟩
  | wrote h ih => exact ih.2
  | @analysed s s' log completion elapsed h hs ih =>
    obtain ⟨htied, -, hzero, -⟩ := h.tied
    subst hs
    refine ⟨trivial, trivial, ?_⟩
    have hzero' : attemptIn (acceptedIn log) = 0 := htied.attempt.symm.trans hzero
    exact .of_state (.wrote (.wrote (ih.exchanged hzero') rfl rfl) rfl rfl) rfl rfl rfl
  | notAnalysed h ih => trivial
  | @planned s s' log plan completion elapsed h hplan hs ih =>
    obtain ⟨htied, hreported, hzero, -⟩ := h.tied
    subst hs
    refine ⟨trivial, keeps_attempts ⟨?_, ?_, ?_⟩ (.wrote hreported.exchanged rfl)
      fun hpos => absurd hzero hpos⟩
    · rw [acceptedIn_wrote, acceptedIn_exchange, sessionIdIn_concat]
      exact ih.id
    · rw [acceptedIn_wrote, planIn_concat]
      rfl
    · rw [blueprintIn_cons_of_none rfl]
      exact (ih.exchanged (htied.attempt.symm.trans hzero)).blueprint
  | notPlanned h hplan ih => trivial
  | applied h happly ih =>
    obtain ⟨htied, hreported, hpos, -, hnew⟩ := h.tied
    refine ⟨ih.applied (htied.attempt ▸ hpos.ne') happly, fun line hline hvalid => ?_⟩
    rw [acceptedIn_exchange, hreported] at hline
    exact kept_applied htied.wellFormed hnew happly hline hvalid
  | @spent s log answer fault left lastError elapsed h happly ih =>
    obtain ⟨htied, hreported, hpos, -, -⟩ := h.tied
    have hcharged : (s.charged answer).Keeps
        (s.exchange source (.attempt left lastError) answer elapsed log) :=
      ih.charged (htied.attempt ▸ hpos.ne') happly
    have hagain : (s.charged answer).Tied
        (s.exchange source (.attempt left lastError) answer elapsed log) :=
      tied_charged htied happly
    refine ⟨continues_report hcharged hagain.wellFormed fun line hline _ => ?_,
      keeps_attempts (hcharged.wrote rfl rfl) (SessionState.isReported_report _ _ _) fun _ => ?_⟩
    · rw [acceptedIn_exchange, hreported] at hline
      exact hline
    · rw [acceptedIn_wrote, reportIn_concat]
      rfl
  | unmerged h happly ih => trivial
  | skipped h hdue ih => exact ⟨ih.1, by rw [List.reverse_cons, List.append_assoc]; exact ih.2⟩
  | @judged s log left lastError a checked todo answer h hdue ih =>
    refine ⟨(ih.1.quiet rfl rfl).quiet rfl rfl, fun line hline hvalid => ?_⟩
    rw [acceptedIn_validated, acceptedIn_looked] at hline
    obtain ⟨b, hb, hlt, hstatus⟩ := ih.2 line hline hvalid
    refine ⟨b, ?_, hlt, hstatus⟩
    -- what is judged belongs to this attempt, so it is another artifact
    have hne : b ≠ a := fun heq => absurd hlt (by rw [heq, hdue.1]; exact Nat.lt_irrefl _)
    rw [List.reverse_cons, List.append_assoc]
    simp only [List.mem_append, List.mem_cons] at hb ⊢
    tauto
  | @checked s s' log left lastError checked h hs ih =>
    obtain ⟨htied, -, -, -⟩ := h.tied
    obtain ⟨hkeeps, hlines⟩ := ih
    rw [List.append_nil] at htied hlines
    subst hs
    have hsame : ({ s with artifacts := checked.reverse } : SessionState).Keeps log :=
      hkeeps.of_state rfl rfl rfl
    refine ⟨continues_report hsame htied.wellFormed fun line hline hvalid => ?_,
      hsame.wrote rfl rfl, ?_⟩
    · obtain ⟨a, ha, -, rfl⟩ := hlines line hline hvalid
      exact List.mem_map_of_mem ha
    · rw [acceptedIn_wrote, reportIn_concat]
      rfl
  | announced h ha ih =>
    obtain ⟨hkeeps, hsome⟩ := ih
    refine ⟨.quiet ⟨?_, ?_, ?_⟩ rfl rfl, ?_⟩
    · rw [acceptedIn_announced, sessionIdIn_concat]
      exact hkeeps.id
    · rw [acceptedIn_announced, planIn_concat]
      exact hkeeps.plan
    · rw [blueprintIn_cons_of_none rfl]
      exact hkeeps.blueprint
    · rw [acceptedIn_recorded, acceptedIn_announced, reportIn_concat]
      exact hsome
  | passedOver h ha ih =>
    refine ⟨ih.1.quiet rfl rfl, ?_⟩
    rw [acceptedIn_passedOver]
    exact ih.2
  | succeeded h hvalid ih => exact ih.1
  | retried h hvalid ih =>
    obtain ⟨htied, hreported, -, -, -⟩ := h.tied
    exact keeps_attempts ih.1 hreported fun _ => ih.2

end

/-! ## The reports of a stream -/

namespace Scene

variable {settings : Settings} {id : Uuid} {source : String} {σ : Scene}

lemma continues_of_reached (h : Reached settings id source σ) :
    Along (fun log event => event.Continues log) σ.steps :=
  along_of_histories (fun _ _ hhistory => hhistory.along_writing
    (fun _ _ _ _ hwriting => hwriting.keeps.1) fun _ _ _ _ _ _ _ _ => trivial) h

/-- A report was written, not announced. -/
lemma eq_emitted_of_accepted? {step : Step} {report : Report}
    (h : step.accepted? = some (.validation report)) :
    step = .emitted (.validation report) (some .wrote) := by
  unfold Step.accepted? at h
  split at h
  · obtain rfl := Option.some.inj h
    rfl
  · exact absurd (Option.some.inj h) (by simp)
  · exact absurd h (by simp)

/-- **The first reply that can be classified is the blueprint of the session.** Once it is fixed it
stays, and has at least one name and no name twice. Every report lists exactly its names, or nothing
if it comes before, and calls validated what the report before it does; a further attempt retries
what the last report does not call validated. If the session is done, its result has the names in
this order, and the mode and the deployment data of the blueprint. -/
theorem reports_follow_blueprint (h : Reached settings id source σ) :
    (∀ earlier b, earlier <:+ σ.steps → blueprintIn earlier = some b →
      b.names ≠ [] ∧ b.names.Nodup ∧ blueprintIn σ.steps = some b) ∧
    (∀ before report after, σ.events = before ++ .validation report :: after →
      ∃ earlier, .emitted (.validation report) (some .wrote) :: earlier <:+ σ.steps ∧
        acceptedIn earlier = before ∧
        report.artifacts.map (·.name) = ((blueprintIn earlier).map (·.names)).getD [] ∧
        ∀ last, reportIn before = some last →
          ∀ line ∈ last.artifacts, line.validated = true → line ∈ report.artifacts) ∧
    (∀ before attempt retrying after, σ.events = before ++ .phase4Start attempt retrying :: after →
      ∃ last, reportIn before = some last ∧
        retrying = (last.artifacts.filter fun line => !line.validated).map (·.name)) ∧
    ∀ result, .done result ∈ σ.events → ∃ b, blueprintIn σ.steps = some b ∧
      result.artifacts.map (·.name) = b.names ∧
      (∀ (i : ℕ) (a : Artifact), result.artifacts[i]? = some a → a.order = i) ∧
      result.mode = b.mode ∧ result.deployment = b.deployment := by
  have halong := continues_of_reached h
  refine ⟨fun earlier b hsuffix hb => ?_, fun before report after hsplit => ?_,
    fun before attempt retrying after hsplit => ?_, fun result hdone => ?_⟩
  · obtain ⟨hne, hnodup⟩ := names_of_blueprintIn hb
    exact ⟨hne, hnodup, blueprintIn_of_suffix hsuffix hb⟩
  · obtain ⟨after', haccepted⟩ := accepted_of_events h hsplit rfl
    obtain ⟨step, earlier, hsuffix, hstep, rfl, hnames, hlines⟩ := halong.of_split_step haccepted
    obtain rfl := eq_emitted_of_accepted? hstep
    exact ⟨earlier, hsuffix, rfl, hnames, hlines⟩
  · obtain ⟨after', haccepted⟩ := accepted_of_events h hsplit rfl
    obtain ⟨earlier, -, rfl, hretrying⟩ := halong.of_split haccepted
    exact hretrying
  · obtain ⟨hhalted, -⟩ := completed_of_done h hdone
    obtain ⟨s, before, entry, time, hhistory, hsteps, rfl⟩ := hhalted.completed_inv
    obtain ⟨htied, hvalid⟩ := hhistory.tied
    have hkeeps : s.Keeps before := hhistory.keeps
    obtain ⟨mode, hmode, hb⟩ := hkeeps.exists_blueprint htied.wellFormed hvalid
    refine ⟨⟨s.order, mode, s.deployment⟩, ?_, htied.wellFormed.names, htied.wellFormed.place, ?_,
      rfl⟩
    · rw [hsteps, blueprintIn_cons_of_none rfl, hb]
    · rw [SessionState.result, hmode, Option.getD_some]

/-- The names of the first reply are those of the result, although the repair has another one. -/
theorem reports_follow_blueprint_repaired :
    blueprintIn Run.repaired.scene.steps = some ⟨["Vault", "Token"], .multi, none⟩ ∧
      ∀ result, .done result ∈ Run.repaired.scene.events →
        result.artifacts.map (·.name) = ["Vault", "Token"] := by
  have hb : blueprintIn Run.repaired.scene.steps = some ⟨["Vault", "Token"], .multi, none⟩ := by
    decide +kernel
  refine ⟨hb, fun result hdone => ?_⟩
  obtain ⟨b, hb', hnames, -⟩ := (reports_follow_blueprint Run.repaired_reached).2.2.2 result hdone
  obtain rfl := Option.some.inj (hb.symm.trans hb')
  exact hnames

end Scene

end ContractConversion
