import ContractConversion.Proofs.Session.Events

/-!
# The phases of a session

The phase that a session is in is that of the last event that starts one (`phaseIn`). Its status
says the same at every point where it does not write an event (`History.phased`). While it writes
one it may be a phase ahead.
-/

namespace ContractConversion

/-- The number of the phase that the event starts. -/
def Event.phase? : Event → Option ℕ
  | phase1Start _ => some 1
  | phase2Start => some 2
  | phase3Start _ => some 3
  | phase4Start _ _ => some 4
  | _ => none

/-- The number of the phase that was started last; 0 before the first one. -/
def phaseIn (events : List Event) : ℕ :=
  events.foldl (fun phase event => event.phase?.getD phase) 0

@[simp] lemma phaseIn_concat (events : List Event) (event : Event) :
    phaseIn (events ++ [event]) = event.phase?.getD (phaseIn events) := by
  rw [phaseIn, List.foldl_concat, ← phaseIn]

/-- The phase of an attempt: the first one generates, the others repair. -/
def attemptPhase (attempt : ℕ) : ℕ :=
  if attempt = 1 then 3 else 4

/-- The phase in which something is asked for. -/
def Quest.phase (s : SessionState) : Quest → ℕ
  | analysis => 1
  | plan => 2
  | attempt _ _ => attemptPhase s.attempt

namespace SessionState

/-- The session is in the phase of the given number. -/
structure InPhase (s : SessionState) (phase : ℕ) (log : List Step) : Prop where
  status : s.status.phase? = some phase
  started : phaseIn (acceptedIn log) = phase

variable {s s' : SessionState} {log log' : List Step} {phase : ℕ}

lemma InPhase.isSome (h : s.InPhase phase log) : s.status.phase?.isSome := by
  rw [h.status]
  rfl

lemma InPhase.of_state (h : s.InPhase phase log) (hstatus : s'.status = s.status) :
    s'.InPhase phase log :=
  ⟨by rw [hstatus]; exact h.status, h.started⟩

/-- Writing an event that starts no phase. -/
lemma InPhase.wrote {event : Event} (h : s.InPhase phase log) (hevent : event.phase? = none) :
    s.InPhase phase (.emitted event (some .wrote) :: log) := by
  refine ⟨h.status, ?_⟩
  rw [acceptedIn_wrote, phaseIn_concat, hevent]
  exact h.started

lemma InPhase.exchanged {source : String} {quest : Quest} {elapsed : ℕ}
    {answer : Except OracleFault Completion} (h : s.InPhase phase log) :
    s.InPhase phase (s.exchange source quest answer elapsed log) := by
  refine ⟨h.status, ?_⟩
  rw [acceptedIn_exchange]
  exact h.started

lemma InPhase.of_accepted (h : s.InPhase phase log) (hlog : acceptedIn log' = acceptedIn log) :
    s.InPhase phase log' :=
  ⟨h.status, by rw [hlog]; exact h.started⟩

/-- An attempt starts its phase. -/
lemma inPhase_nextAttempt (s : SessionState) (log : List Step) :
    s.nextAttempt.InPhase (attemptPhase (s.attempt + 1))
      (.emitted s.nextAttempt.attemptStart (some .wrote) :: log) := by
  rw [attemptPhase]
  by_cases hzero : s.attempt = 0
  · have hstart : s.nextAttempt.attemptStart = .phase3Start s.nextAttempt.attempt :=
      if_pos (congrArg (· + 1) hzero)
    have hstatus : s.nextAttempt.status = .phase3 := if_pos hzero
    rw [hstart, if_pos (congrArg (· + 1) hzero)]
    refine ⟨by rw [hstatus]; rfl, ?_⟩
    rw [acceptedIn_wrote, phaseIn_concat]
    rfl
  · have hne : ¬ s.attempt + 1 = 1 := by omega
    have hstart : s.nextAttempt.attemptStart =
        .phase4Start s.nextAttempt.attempt (s.nextAttempt.retryBatch.map (·.name)) := if_neg hne
    have hstatus : s.nextAttempt.status = .phase4 := if_neg hzero
    rw [hstart, if_neg hne]
    refine ⟨by rw [hstatus]; rfl, ?_⟩
    rw [acceptedIn_wrote, phaseIn_concat]
    rfl

end SessionState

/-- The phase of a session at a point. -/
def Point.Phased : Point → List Step → Prop
  | writing event s next, log =>
    s.status.phase?.isSome ∧ next.Phased (.emitted event (some .wrote) :: log)
  | asking quest s, log => s.InPhase (quest.phase s) log
  | checking _ _ s _ _, log | announcing _ _ s _, log | succeeding s, log =>
    s.InPhase (attemptPhase s.attempt) log
  | failing s failure, log =>
    match failure with
    | .oracle phase _ => s.InPhase phase log
    | _ => s.InPhase (attemptPhase s.attempt) log

section

variable {settings : Settings} {id : Uuid} {source : String} {s : SessionState} {log : List Step}

lemma phased_attempts {left : ℕ} {lastError : String}
    (h : left ≠ 0 ∨ s.InPhase (attemptPhase s.attempt) log) :
    (Point.attempts settings left s lastError).Phased log := by
  cases left with
  | zero => exact h.resolve_left fun hne => hne rfl
  | succ left =>
    have hphase := s.inPhase_nextAttempt log
    exact ⟨hphase.isSome, hphase⟩

/-- **At every point of a session its status tells the phase that was started last.** -/
theorem History.phased {point : Point} (h : History settings id source point log) :
    point.Phased log := by
  induction h with
  | opened => exact ⟨rfl, rfl, rfl⟩
  | wrote h ih => exact ih.2
  | @analysed s s' log completion elapsed h hs ih =>
    subst hs
    refine ⟨ih.isSome, rfl, rfl, ?_⟩
    rw [acceptedIn_wrote, phaseIn_concat]
    rfl
  | notAnalysed h ih => exact .of_state ih.exchanged rfl
  | @planned s s' log plan completion elapsed h hplan hs ih =>
    subst hs
    -- there is at least one attempt, so the session does not fail in its second phase here
    have hsome : settings.attempts ≠ 0 := Nat.ne_of_gt (Nat.le_max_left 1 _)
    exact ⟨ih.isSome, phased_attempts (Or.inl hsome)⟩
  | notPlanned h hplan ih => exact .of_state ih.exchanged rfl
  | @applied s s' log answer elapsed left lastError h happly ih =>
    obtain ⟨hstatus, hattempt, -⟩ := frame_of_applyAnswer happly
    rw [Point.Phased, hattempt]
    exact .of_state ih.exchanged hstatus
  | @spent s log answer fault left lastError elapsed h happly ih =>
    have hcharged : (s.charged answer).InPhase (attemptPhase (s.charged answer).attempt)
        (s.exchange source (.attempt left lastError) answer elapsed log) :=
      .of_state ih.exchanged rfl
    exact ⟨ih.isSome, phased_attempts (Or.inr (hcharged.wrote rfl))⟩
  | unmerged h happly ih => exact .of_state ih.exchanged rfl
  | skipped h hdue ih => exact ih
  | judged h hdue ih => exact ih.of_accepted (by rw [acceptedIn_validated, acceptedIn_looked])
  | checked h hs ih =>
    subst hs
    exact ⟨ih.isSome, .of_state (ih.wrote rfl) rfl⟩
  | announced h ha ih =>
    refine ⟨ih.status, ?_⟩
    rw [acceptedIn_recorded, acceptedIn_announced, phaseIn_concat]
    exact ih.started
  | passedOver h ha ih => exact ih.of_accepted (acceptedIn_passedOver _)
  | succeeded h hvalid ih => exact ih
  | retried h hvalid ih => exact phased_attempts (Or.inr ih)

end

end ContractConversion
