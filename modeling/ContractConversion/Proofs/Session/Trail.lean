import ContractConversion.Proofs.Session.Announcements
import ContractConversion.Proofs.Session.Phases
import ContractConversion.Proofs.Session.Spending
import ContractConversion.Proofs.Session.Stepwise

/-!
# The audit trail of a session

The entries of a trail are written by the task of a session on its way, and the last one by its
supervisor if the task was cut off. What stands between the first and the last entry is told by the
log: one entry for each reply, and one for each announcement that the stream accepted (`toldIn`).
So the trail and the stream tell the same story, however the session ends.
-/

namespace ContractConversion

/-! ## Entries -/

namespace AuditEntry

/-- The entry without the time that a call took. -/
def untimed : AuditEntry → AuditEntry
  | oracleCall phase attempt _ usage error => oracleCall phase attempt 0 usage error
  | entry => entry

/-- What the call of the entry cost. -/
def cost : AuditEntry → Usage
  | oracleCall _ _ _ usage _ => usage
  | _ => {}

/-- The entry is about an artifact. -/
def isPersisted : AuditEntry → Bool
  | artifactPersisted _ _ _ _ => true
  | _ => false

@[simp] lemma name_untimed (entry : AuditEntry) : entry.untimed.name = entry.name := by
  cases entry <;> rfl

@[simp] lemma cost_untimed (entry : AuditEntry) : entry.untimed.cost = entry.cost := by
  cases entry <;> rfl

@[simp] lemma isPersisted_untimed (entry : AuditEntry) :
    entry.untimed.isPersisted = entry.isPersisted := by
  cases entry <;> rfl

lemma untimed_of_isPersisted {entry : AuditEntry} (h : entry.isPersisted = true) :
    entry.untimed = entry := by
  cases entry with
  | artifactPersisted => rfl
  | _ => cases h

end AuditEntry

/-- The entry for an artifact that is announced. -/
def Artifact.entry (a : Artifact) : AuditEntry :=
  .artifactPersisted a.name a.attempt a.size a.code.length

/-! ## Views of a log -/

/-- The entry for a reply that comes behind a log, but for the time that it took. It names the phase
that was started last, and the attempt if there is one. -/
def replyEntry (log : List Step) (answer : Except OracleFault Completion) : AuditEntry :=
  .oracleCall (phaseIn (acceptedIn log))
    (if attemptIn (acceptedIn log) = 0 then none else some (attemptIn (acceptedIn log))) 0
    (answerUsage answer) (answerError? answer)

/-- The entry that a step calls for, behind a log. -/
def Step.told? (log : List Step) : Step → Option AuditEntry
  | .called _ (some answer) => some (replyEntry log answer)
  | .announced a (some .wrote) => some a.entry
  | _ => none

/-- The entries that the replies and the announcements along a log call for, the oldest first. -/
def toldIn : List Step → List AuditEntry
  | [] => []
  | step :: log => toldIn log ++ (step.told? log).toList

/-- The trail of a session that ended with a log; the supervisor adds what the task could not. -/
def trailIn (budget : ℕ) (halt : Halt) (log : List Step) : List AuditEntry :=
  (entriesIn log).reverse ++ (halt.entry? budget).toList

section

variable {log : List Step}

lemma toldIn_cons_of_none {step : Step} (h : step.told? log = none) :
    toldIn (step :: log) = toldIn log := by
  rw [toldIn, h, Option.toList_none, List.append_nil]

/-- The trail of a run is that of its log. -/
lemma Run.trail_eq (r : Run) : r.trail = trailIn r.budget r.halt r.scene.steps := by
  rw [trailIn, entriesIn, scene, ← List.filterMap_reverse, List.reverse_reverse, trail]
  refine congrArg (· ++ _) (List.filterMap_congr fun step _ => ?_)
  cases step <;> rfl

/-- What is called for is the entry of a call or of an artifact. -/
lemma name_of_mem_toldIn {entry : AuditEntry} (h : entry ∈ toldIn log) :
    entry.name = "oracle_call" ∨ entry.name = "artifact_persisted" := by
  induction log with
  | nil => exact absurd h List.not_mem_nil
  | cons step rest ih =>
    rcases List.mem_append.mp h with h | h
    · exact ih h
    · rw [Option.mem_toList] at h
      cases step with
      | called request answer =>
        cases answer with
        | none => cases h
        | some answer =>
          obtain rfl := Option.some.inj h
          exact Or.inl rfl
      | announced a answer =>
        rcases answer with _ | _ | _ | _ | _ <;> cases h
        exact Or.inr rfl
      | _ => cases h

/-- The entry that a step calls for costs what the step does. -/
lemma Step.cost_told (log : List Step) (step : Step) :
    (step.told? log).elim {} AuditEntry.cost = step.cost := by
  cases step with
  | called request answer => cases answer <;> rfl
  | announced a answer => rcases answer with _ | _ | _ | _ | _ <;> rfl
  | _ => rfl

/-- What is called for costs what the replies do. -/
lemma cost_toldIn (log : List Step) :
    ((toldIn log).map AuditEntry.cost).foldl (· + ·) {} = usageIn log := by
  induction log with
  | nil => rfl
  | cons step rest ih =>
    rw [toldIn, List.map_append, List.foldl_append, ih, usageIn, ← step.cost_told rest]
    cases step.told? rest with
    | none => exact (Usage.add_zero _).symm
    | some entry => rfl

/-- If no artifact is announced but by an announcement, what is called for about artifacts is what
the stream announces. -/
lemma filter_toldIn
    (h : Stepwise (fun _ step => ∀ event answer, step = .emitted event answer →
      event.announced? = none) log) :
    (toldIn log).filter AuditEntry.isPersisted =
      (announcedIn (acceptedIn log)).map Artifact.entry := by
  induction log with
  | nil => rfl
  | cons step rest ih =>
    rw [toldIn, List.filter_append, ih h.2, acceptedIn, announcedIn, announcedIn,
      List.filterMap_append, List.map_append]
    refine congrArg (_ ++ ·) ?_
    cases step with
    | called request answer => cases answer <;> rfl
    | announced a answer => rcases answer with _ | _ | _ | _ | _ <;> rfl
    | emitted event answer =>
      have hnone : event.announced? = none := h.1 event answer rfl
      rcases answer with _ | _ | _ | _ | _ <;> simp [Step.told?, Step.accepted?, hnone]
    | _ => rfl

end

/-! ## What was written is what is called for -/

/-- The trail so far: its start, and what the log calls for. -/
def Trailed (source : String) (log : List Step) : Prop :=
  ∃ middle, (entriesIn log).reverse = .sessionStarted source.length :: middle ∧
    middle.map AuditEntry.untimed = toldIn log

section

variable {settings : Settings} {id : Uuid} {source : String} {log : List Step}

/-- A step at which nothing is written and nothing is called for. -/
lemma Trailed.quiet {step : Step} (h : Trailed source log) (hrecorded : step.recorded? = none)
    (htold : step.told? log = none) : Trailed source (step :: log) := by
  rw [Trailed, entriesIn_cons_of_none hrecorded, toldIn_cons_of_none htold]
  exact h

lemma Trailed.looked (h : Trailed source log) (gone : Bool) :
    Trailed source (.looked gone :: log) :=
  h.quiet rfl rfl

/-- A step calls for an entry, and the entry is written. -/
lemma Trailed.told {step : Step} {entry : AuditEntry} (h : Trailed source log)
    (hrecorded : step.recorded? = none) (htold : step.told? log = some entry.untimed) :
    Trailed source (.recorded entry :: step :: log) := by
  obtain ⟨middle, hmiddle, hsame⟩ := h
  refine ⟨middle ++ [entry], ?_, ?_⟩
  · have hentries : entriesIn (.recorded entry :: step :: log) = entry :: entriesIn log :=
      congrArg _ (entriesIn_cons_of_none hrecorded log)
    rw [hentries, List.reverse_cons, hmiddle, List.cons_append]
  · rw [toldIn_cons_of_none rfl, toldIn, htold, List.map_append, hsame]
    rfl

/-- An exchange calls for the entry that is written for it. -/
lemma Trailed.exchange {quest : Quest} {s : SessionState} {elapsed : ℕ}
    {answer : Except OracleFault Completion}
    (h : History settings id source (.asking quest s) log) (ih : Trailed source log) :
    Trailed source (s.exchange source quest answer elapsed log) := by
  have hphase := h.phased
  refine (ih.looked false).told rfl ?_
  rw [Step.told?, replyEntry, acceptedIn_looked, hphase.started]
  -- only what is asked in an attempt has a number, and then it is that of the attempt
  have hattempt : (if attemptIn (acceptedIn log) = 0 then none
      else some (attemptIn (acceptedIn log))) = quest.number? s := by
    have htied := h.tied
    cases quest with
    | analysis => rw [← htied.1.attempt, if_pos htied.2.2.1]; rfl
    | plan => rw [← htied.1.attempt, if_pos htied.2.2.1]; rfl
    | attempt left lastError =>
      rw [← htied.1.attempt, if_neg (Nat.ne_of_gt htied.2.2.1)]
      rfl
  rw [hattempt, SessionState.callEntry, hphase.status]
  rfl

/-- **At every point of a session what was written is what the log calls for.** -/
theorem History.trailed {point : Point} (h : History settings id source point log) :
    Trailed source log := by
  induction h with
  | opened => exact ⟨[], rfl, rfl⟩
  | wrote h ih => exact ih.quiet rfl rfl
  | analysed completion elapsed h hs ih => exact ih.exchange h
  | notAnalysed h ih => exact ih.exchange h
  | planned completion elapsed h hplan hs ih => exact ih.exchange h
  | notPlanned h hplan ih => exact ih.exchange h
  | applied h happly ih => exact ih.exchange h
  | spent elapsed h happly ih => exact ih.exchange h
  | unmerged h happly ih => exact ih.exchange h
  | skipped h hdue ih => exact ih
  | judged h hdue ih => exact (ih.looked false).quiet rfl rfl
  | checked h hs ih => exact ih
  | announced h ha ih => exact ih.told rfl rfl
  | passedOver h ha ih => exact ih.quiet rfl rfl
  | succeeded h hvalid ih => exact ih
  | retried h hvalid ih => exact ih

/-- The last entry of a trail: how the session ended. -/
structure Halt.Finishes (halt : Halt) (status : Status) (error : Option String) : Prop where
  complete : status = .complete ↔ halt.outcome = .completed
  failed : status = .error ↔
    halt.outcome = .failed ∨ halt.outcome = .timedOut ∨ halt.outcome = .panicked
  cancelled : halt.outcome = .cancelled → status.phase?.isSome ∧ error = some "cancelled"

lemma finishes_complete {halt : Halt} {error : Option String} (h : halt.outcome = .completed) :
    halt.Finishes .complete error := by
  constructor <;> simp [h]

lemma finishes_error {halt : Halt} {error : Option String}
    (h : halt.outcome = .failed ∨ halt.outcome = .timedOut ∨ halt.outcome = .panicked) :
    halt.Finishes .error error := by
  rcases h with h | h | h <;> constructor <;> simp [h]

/-- A session that is cancelled ends in the phase that it is in. -/
lemma finishes_cancelled {s : SessionState} (h : s.status.phase?.isSome) :
    (Halt.ended .cancelled).Finishes s.status (some "cancelled") := by
  refine ⟨?_, ?_, fun _ => ⟨h, rfl⟩⟩
  · cases hs : s.status <;> simp [hs, Status.phase?, Halt.outcome] at h ⊢
  · cases hs : s.status <;> simp [hs, Status.phase?, Halt.outcome] at h ⊢

/-- What the trail of a session is that ended in the given way. -/
def Ended (source : String) (budget : ℕ) (halt : Halt) (log : List Step) : Prop :=
  ∃ middle status attempts error,
    trailIn budget halt log =
        .sessionStarted source.length :: middle ++ [.sessionFinished status attempts error] ∧
      middle.map AuditEntry.untimed = toldIn log ∧ halt.Finishes status error

variable {budget : ℕ} {halt : Halt} {status : Status} {attempts : ℕ} {error : Option String}

/-- The task writes the last entry. -/
lemma Trailed.ended {ending : Ending} (h : Trailed source log)
    (hfinishes : (Halt.ended ending).Finishes status error) :
    Ended source budget (.ended ending)
      (.recorded (.sessionFinished status attempts error) :: log) := by
  obtain ⟨middle, hmiddle, hsame⟩ := h
  refine ⟨middle, status, attempts, error, ?_, ?_, hfinishes⟩
  · have hentries : entriesIn (.recorded (.sessionFinished status attempts error) :: log) =
        .sessionFinished status attempts error :: entriesIn log := rfl
    rw [trailIn, hentries, List.reverse_cons, hmiddle]
    exact List.append_nil _
  · rw [toldIn_cons_of_none rfl, hsame]

/-- The supervisor writes the last entry of a session that was cut off. -/
lemma Trailed.cut (h : Trailed source log) (hhalt : halt = .timedOut ∨ halt = .panicked) :
    Ended source budget halt log := by
  obtain ⟨middle, hmiddle, hsame⟩ := h
  obtain ⟨error, hentry⟩ :
      ∃ error, halt.entry? budget = some (.sessionFinished .error 0 error) := by
    rcases hhalt with rfl | rfl
    · exact ⟨_, rfl⟩
    · exact ⟨_, rfl⟩
  refine ⟨middle, .error, 0, error, ?_, hsame, finishes_error ?_⟩
  · rw [trailIn, hmiddle, hentry]
    rfl
  · rcases hhalt with rfl | rfl
    · exact Or.inr (Or.inl rfl)
    · exact Or.inr (Or.inr rfl)

/-- **However a session ends, its trail is what its log calls for, between a start and an end.** -/
theorem Halted.trail (h : Halted settings id source log halt) (budget : ℕ) :
    Ended source budget halt log := by
  -- a session that notices the loss of its reader writes the last entry itself
  have hlost : ∀ {s : SessionState} {log : List Step}, Trailed source log →
      s.status.phase?.isSome → Ended source budget (.ended .cancelled) (s.cancelEntry :: log) :=
    fun htrailed hsome => htrailed.ended (finishes_cancelled hsome)
  cases h with
  | writeCut h => exact (h.trailed.quiet rfl rfl).cut (Or.inl rfl)
  | writeLost h => exact hlost (h.trailed.quiet rfl rfl) h.phased.1
  | askLost h => exact hlost (h.trailed.quiet rfl rfl) h.phased.isSome
  | askCut h hhalt =>
    exact ((h.trailed.looked false).quiet rfl rfl).cut hhalt
  | checkLost h hdue => exact hlost (h.trailed.quiet rfl rfl) h.phased.isSome
  | checkCut h hdue hhalt =>
    exact ((h.trailed.looked false).quiet rfl rfl).cut hhalt
  | announceCut h => exact (h.trailed.quiet rfl rfl).cut (Or.inl rfl)
  | announceLost h ha => exact hlost (h.trailed.quiet rfl rfl) h.phased.isSome
  | failed h => exact h.trailed.ended (finishes_error (Or.inl rfl))
  | completed h => exact h.trailed.ended (finishes_complete rfl)

/-- Only an announcement announces an artifact. -/
lemma grants_plain :
    Point.Grants settings id source (fun _ step => ∀ event answer, step = .emitted event answer →
      event.announced? = none) where
  quiet log step hquiet event answer hstep := by
    subst hstep
    exact hquiet.elim
  writing event s next log answer h event' answer' hstep := by
    obtain ⟨rfl, -⟩ := Step.emitted.inj hstep
    exact h.tied.1.1
  asking quest s log answer h event answer' hstep := by cases hstep
  checking left lastError s a checked todo log answer h hdue event answer' hstep := by cases hstep

end

/-! ## The trail of a scene -/

namespace Scene

variable {settings : Settings} {id : Uuid} {source : String} {σ : Scene}

/-- **The audit trail tells the same story as the stream.** However a session ends, its trail goes
from its start to its end. Between them there are exactly the entries that its log calls for, in
order: one for each reply, and one for each announcement that the stream accepted. The last entry
tells how the session ended, and what the calls of a session that is completed cost is what its
result says: both counts of it are the sums of theirs, which are exact if 64 bits have room for
them. -/
theorem trail_of_closed (h : Reached settings id source σ) {halt : Halt}
    (hclosed : σ.task = .closed halt) :
    ∃ middle status attempts error,
      trailIn settings.timeoutMs halt σ.steps =
          .sessionStarted source.length :: middle ++ [.sessionFinished status attempts error] ∧
        (∀ entry ∈ middle, entry.name = "oracle_call" ∨ entry.name = "artifact_persisted") ∧
        middle.map AuditEntry.untimed = toldIn σ.steps ∧
        middle.filter AuditEntry.isPersisted = (announcedIn σ.events).map Artifact.entry ∧
        halt.Finishes status error ∧
        ∀ result, halt = .ended (.completed result) →
          (middle.map AuditEntry.cost).foldl (· + ·) {} = result.usage ∧
            result.usage.IsSum (middle.map AuditEntry.cost) := by
  have hsound := sound_of_reached ofSource_ends h
  rw [Sound, hclosed] at hsound
  have hhalted : Halted settings id source σ.steps halt := hsound.1
  obtain ⟨middle, status, attempts, error, htrail, htold, hfinishes⟩ :=
    hhalted.trail settings.timeoutMs
  refine ⟨middle, status, attempts, error, htrail, fun entry hentry => ?_, htold, ?_, hfinishes,
    fun result hresult => ?_⟩
  · have hmem : entry.untimed ∈ toldIn σ.steps := by
      rw [← htold]
      exact List.mem_map_of_mem hentry
    rw [← entry.name_untimed]
    exact name_of_mem_toldIn hmem
  · have hplain := filter_toldIn (stepwise_of_reached h grants_plain)
    rw [announcedIn_events h, ← hplain, ← htold, List.filter_map]
    -- an entry about an artifact has no time to leave out
    have hsame : ∀ entry ∈ middle.filter AuditEntry.isPersisted, entry.untimed = entry :=
      fun entry hentry => AuditEntry.untimed_of_isPersisted (List.mem_filter.mp hentry).2
    have hfilter : middle.filter (AuditEntry.isPersisted ∘ AuditEntry.untimed) =
        middle.filter AuditEntry.isPersisted :=
      List.filter_congr fun entry _ => entry.isPersisted_untimed
    rw [hfilter, List.map_congr_left hsame, List.map_id']
  · -- the result has what the state has spent, which is what the replies cost
    rw [hresult] at hhalted
    obtain ⟨s, before, entry, time, hhistory, hsteps, rfl⟩ := hhalted.completed_inv
    have hcost : middle.map AuditEntry.cost = (toldIn σ.steps).map AuditEntry.cost := by
      rw [← htold, List.map_map]
      exact List.map_congr_left fun entry _ => entry.cost_untimed.symm
    have hspent : s.usage = usageIn before := hhistory.spent_usage
    have hsum : (middle.map AuditEntry.cost).foldl (· + ·) {} = s.usage := by
      rw [hcost, cost_toldIn, hsteps, usageIn_cons_of_free rfl, ← hspent]
    refine ⟨hsum, ?_⟩
    show s.usage.IsSum (middle.map AuditEntry.cost)
    rw [← hsum]
    exact Usage.isSum_foldl _

/-- The trail of the run with a repair tells of the vault of the first attempt and of the token of
the second. -/
theorem trail_of_closed_repaired :
    ∃ middle status attempts error,
      Run.repaired.trail =
          .sessionStarted 13 :: middle ++ [.sessionFinished status attempts error] ∧
        middle.filter AuditEntry.isPersisted =
          [.artifactPersisted "Vault" 1 (some 5) 5, .artifactPersisted "Token" 2 (some 5) 5] ∧
        status = .complete := by
  have hbudget : Run.repaired.budget = ({} : Settings).timeoutMs := rfl
  have hannounced : (announcedIn Run.repaired.scene.events).map Artifact.entry =
      [.artifactPersisted "Vault" 1 (some 5) 5, .artifactPersisted "Token" 2 (some 5) 5] := by
    decide +kernel
  have houtcome : Run.repaired.halt.outcome = .completed := by decide +kernel
  have hclosed : Run.repaired.scene.task = .closed Run.repaired.halt := rfl
  obtain ⟨middle, status, attempts, error, htrail, -, -, hpersisted, hfinishes, -⟩ :=
    trail_of_closed Run.repaired_reached hclosed
  refine ⟨middle, status, attempts, error, ?_, hpersisted.trans hannounced,
    hfinishes.complete.mpr houtcome⟩
  rw [Run.trail_eq, hbudget, htrail]
  rfl

end Scene

end ContractConversion
