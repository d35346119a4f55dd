import ContractConversion.Proofs.Session.Attempts

/-!
# The events of a session

`Along P` says that every event that was accepted along a log satisfies `P` together with the log
before it. In a session an event is either plain or the announcement of an artifact, so `P` needs to
be shown of these two only (`along_of_reached`).

The events of a scene are what was accepted along its log, with the terminal event behind it once
the session is over (`events_of_reached`).
-/

namespace ContractConversion

/-! ## What holds of every event of a log -/

/-- Every event that was accepted along the log satisfies `P` with the log before it. -/
def Along (P : List Step → Event → Prop) : List Step → Prop
  | [] => True
  | step :: log => (∀ event, step.accepted? = some event → P log event) ∧ Along P log

namespace Along

variable {P : List Step → Event → Prop} {log : List Step}

lemma quiet {step : Step} (h : Along P log) (hstep : step.accepted? = none) :
    Along P (step :: log) :=
  ⟨fun event hevent => absurd (hstep.symm.trans hevent) (by simp), h⟩

lemma append {tail : List Step} (h : Along P log) (hquiet : ∀ step ∈ tail, step.accepted? = none) :
    Along P (tail ++ log) := by
  induction tail with
  | nil => exact h
  | cons step rest ih =>
    refine quiet (ih fun s hs => hquiet s (List.mem_cons_of_mem _ hs)) ?_
    exact hquiet step List.mem_cons_self

lemma of_append {tail : List Step} (h : Along P (tail ++ log)) : Along P log := by
  induction tail with
  | nil => exact h
  | cons step rest ih => exact ih h.2

lemma exchange {s : SessionState} {source : String} {quest : Quest} {elapsed : ℕ}
    {answer : Except OracleFault Completion} (h : Along P log) :
    Along P (s.exchange source quest answer elapsed log) :=
  quiet (quiet (quiet h rfl) rfl) rfl

/-- Where the accepted events are cut in front of one of them, the log can be cut in front of the
step at which it was accepted. -/
lemma of_split_step {before after : List Event} {event : Event} (h : Along P log)
    (hsplit : acceptedIn log = before ++ event :: after) :
    ∃ step earlier, step :: earlier <:+ log ∧ step.accepted? = some event ∧
      acceptedIn earlier = before ∧ P earlier event := by
  induction log generalizing after with
  | nil => simp [acceptedIn] at hsplit
  | cons step rest ih =>
    cases hstep : step.accepted? with
    | none =>
      rw [acceptedIn_cons_of_none hstep] at hsplit
      obtain ⟨cut, earlier, hsuffix, hfound⟩ := ih h.2 hsplit
      exact ⟨cut, earlier, hsuffix.trans (List.suffix_cons _ _), hfound⟩
    | some last =>
      rw [acceptedIn_cons_of_some hstep] at hsplit
      rcases List.eq_nil_or_concat after with rfl | ⟨init, e, rfl⟩
      · -- the cut is in front of the event of this step
        obtain ⟨hbefore, hlast⟩ := List.append_inj' hsplit rfl
        obtain rfl : last = event := by simpa using hlast
        exact ⟨step, rest, List.suffix_rfl, hstep, hbefore, h.1 last hstep⟩
      · -- the event of this step is the last one behind the cut
        rw [List.concat_eq_append, ← List.cons_append, ← List.append_assoc] at hsplit
        obtain ⟨hrest, -⟩ := List.append_inj' hsplit rfl
        obtain ⟨cut, earlier, hsuffix, hfound⟩ := ih h.2 hrest
        exact ⟨cut, earlier, hsuffix.trans (List.suffix_cons _ _), hfound⟩

/-- Where the accepted events are cut in front of one of them, the log can be cut too. -/
lemma of_split {before after : List Event} {event : Event} (h : Along P log)
    (hsplit : acceptedIn log = before ++ event :: after) :
    ∃ earlier, earlier <:+ log ∧ acceptedIn earlier = before ∧ P earlier event := by
  obtain ⟨step, earlier, hsuffix, -, hfound⟩ := h.of_split_step hsplit
  exact ⟨earlier, (List.suffix_cons _ _).trans hsuffix, hfound⟩

end Along

section

variable {settings : Settings} {id : Uuid} {source : String}

/-- In a session, an event that was accepted was about to be written, or announces an artifact. -/
theorem History.along_writing {P : List Step → Event → Prop}
    (hwriting : ∀ event s next log,
      History settings id source (.writing event s next) log → P log event)
    (hannounced : ∀ left lastError s a todo log,
      History settings id source (.announcing left lastError s (a :: todo)) log →
      Announces log a .wrote → P log (.artifactReady a))
    {point : Point} {log : List Step} (h : History settings id source point log) : Along P log := by
  induction h with
  | opened => exact Along.quiet trivial rfl
  | wrote h ih =>
    refine ⟨fun event hevent => ?_, ih⟩
    obtain rfl := Option.some.inj hevent
    exact hwriting _ _ _ _ h
  | analysed completion elapsed h hs ih => exact ih.exchange
  | notAnalysed h ih => exact ih.exchange
  | planned completion elapsed h hplan hs ih => exact ih.exchange
  | notPlanned h hplan ih => exact ih.exchange
  | applied h happly ih => exact ih.exchange
  | spent elapsed h happly ih => exact ih.exchange
  | unmerged h happly ih => exact ih.exchange
  | skipped h hdue ih => exact ih
  | judged h hdue ih => exact (ih.quiet rfl).quiet rfl
  | checked h hs ih => exact ih
  | announced h ha ih =>
    refine Along.quiet ⟨fun event hevent => ?_, ih⟩ rfl
    obtain rfl := Option.some.inj hevent
    exact hannounced _ _ _ _ _ _ h ha
  | passedOver h ha ih => exact ih.quiet rfl
  | succeeded h hvalid ih => exact ih
  | retried h hvalid ih => exact ih

/-- In a session, an event that was accepted is plain or announces an artifact. -/
theorem History.along {P : List Step → Event → Prop}
    (hplain : ∀ log event, event.IsPlain → P log event)
    (hannounced : ∀ left lastError s a todo log,
      History settings id source (.announcing left lastError s (a :: todo)) log →
      Announces log a .wrote → P log (.artifactReady a))
    {point : Point} {log : List Step} (h : History settings id source point log) : Along P log :=
  h.along_writing (fun event _ _ log hwriting => hplain log event hwriting.tied.1) hannounced

/-- A log with which a session ends is a history and a few steps at which nothing was accepted. -/
lemma Halted.history {log : List Step} {halt : Halt} (h : Halted settings id source log halt) :
    ∃ point before tail, History settings id source point before ∧ log = tail ++ before ∧
      ∀ step ∈ tail, step.accepted? = none := by
  cases h with
  | @writeCut event s next log h =>
    exact ⟨_, _, [.emitted event none], h, rfl, by simp [Step.accepted?]⟩
  | @writeLost event s next log h =>
    exact ⟨_, _, [s.cancelEntry, .emitted event (some .disconnected)], h, rfl,
      by simp [Step.accepted?, SessionState.cancelEntry]⟩
  | @askLost quest s log h =>
    exact ⟨_, _, [s.cancelEntry, .looked true], h, rfl,
      by simp [Step.accepted?, SessionState.cancelEntry]⟩
  | @askCut quest s log halt h hhalt =>
    exact ⟨_, _, [.called (quest.request source s) none, .looked false], h, rfl,
      by simp [Step.accepted?]⟩
  | @checkLost s log left lastError a checked todo h hdue =>
    exact ⟨_, _, [s.cancelEntry, .looked true], h, rfl,
      by simp [Step.accepted?, SessionState.cancelEntry]⟩
  | @checkCut s log left lastError a checked todo halt h hdue hhalt =>
    exact ⟨_, _, [.validated a.code none, .looked false], h, rfl, by simp [Step.accepted?]⟩
  | @announceCut s log left lastError a todo h =>
    exact ⟨_, _, [.announced a none], h, rfl, by simp [Step.accepted?]⟩
  | @announceLost s log left lastError a todo h ha =>
    exact ⟨_, _, [s.cancelEntry, .announced a (some .disconnected)], h, rfl,
      by simp [Step.accepted?, SessionState.cancelEntry]⟩
  | @failed s failure log h =>
    exact ⟨_, _, [.recorded (.sessionFinished .error s.attempt (some failure.message))], h, rfl,
      by simp [Step.accepted?]⟩
  | @completed s log time h =>
    exact ⟨_, _, [.recorded (.sessionFinished .complete s.attempt none)], h, rfl,
      by simp [Step.accepted?]⟩

/-- A session that is completed hands over the result of a state whose artifacts are all valid. -/
lemma Halted.completed_inv {log : List Step} {result : ConversionResult}
    (h : Halted settings id source log (.ended (.completed result))) :
    ∃ s before entry time, History settings id source (.succeeding s) before ∧
      log = .recorded entry :: before ∧ result = s.result time := by
  cases h with
  | completed h => exact ⟨_, _, _, _, h, rfl, rfl⟩
  | askCut h hhalt => rcases hhalt with hhalt | hhalt <;> exact absurd hhalt (by simp)
  | checkCut h hdue hhalt => rcases hhalt with hhalt | hhalt <;> exact absurd hhalt (by simp)

/-- A session that failed came to a failure. -/
lemma Halted.failed_inv {log : List Step} {failure : SessionFailure} {phase : Option ℕ}
    (h : Halted settings id source log (.ended (.failed failure phase))) :
    ∃ s before entry, History settings id source (.failing s failure) before ∧
      log = .recorded entry :: before ∧ phase = failure.phase?.or s.status.phase? := by
  cases h with
  | failed h => exact ⟨_, _, _, h, rfl, rfl⟩
  | askCut h hhalt => rcases hhalt with hhalt | hhalt <;> exact absurd hhalt (by simp)
  | checkCut h hdue hhalt => rcases hhalt with hhalt | hhalt <;> exact absurd hhalt (by simp)

end

/-! ## The events of a scene -/

/-- What the supervisor hands in is terminal. -/
lemma Halt.isTerminal_of_terminal? {halt : Halt} {budget : ℕ} {event : Event}
    (h : halt.terminal? budget = some event) : event.isTerminal = true := by
  rcases halt with (result | ⟨failure, phase⟩ | _) | _ | _
  · obtain rfl := Option.some.inj h
    rfl
  · obtain rfl := Option.some.inj h
    rfl
  · exact absurd h (by simp [terminal?, Ending.terminal?])
  · obtain rfl := Option.some.inj h
    rfl
  · obtain rfl := Option.some.inj h
    rfl

namespace Scene

variable {settings : Settings} {id : Uuid} {source : String} {σ : Scene}

/-- The log of a scene can be brought to an end of the session at which nothing more is accepted. -/
lemma halted_of_reached (h : Reached settings id source σ) :
    ∃ tail halt, (∀ step ∈ tail, step.accepted? = none) ∧
      Halted settings id source (tail ++ σ.steps) halt ∧
      (σ.events = acceptedIn σ.steps ∨ ∃ event, tail = [] ∧
        halt.terminal? settings.timeoutMs = some event ∧
        σ.events = acceptedIn σ.steps ++ [event]) :=
  (sound_of_reached ofSource_ends h).log

/-- What was accepted in a scene was accepted along a history. -/
lemma history_of_reached (h : Reached settings id source σ) :
    ∃ point log, History settings id source point log ∧ acceptedIn σ.steps = acceptedIn log := by
  obtain ⟨tail, halt, hquiet, hhalted, -⟩ := halted_of_reached h
  obtain ⟨point, log, tail', hhistory, hlog, hquiet'⟩ := hhalted.history
  refine ⟨point, log, hhistory, ?_⟩
  rw [← acceptedIn_append_of_quiet hquiet, hlog, acceptedIn_append_of_quiet hquiet']

/-- What holds of the events along every history holds along the log of a scene. -/
theorem along_of_histories {P : List Step → Event → Prop}
    (hP : ∀ point log, History settings id source point log → Along P log)
    (h : Reached settings id source σ) : Along P σ.steps := by
  obtain ⟨tail, halt, -, hhalted, -⟩ := halted_of_reached h
  obtain ⟨point, log, tail', hhistory, hlog, hquiet'⟩ := hhalted.history
  have halong := (hP point log hhistory).append hquiet'
  rw [← hlog] at halong
  exact halong.of_append

/-- Every event of a scene is plain, announces an artifact or is the terminal one. -/
theorem along_of_reached {P : List Step → Event → Prop}
    (hplain : ∀ log event, event.IsPlain → P log event)
    (hannounced : ∀ left lastError s a todo log,
      History settings id source (.announcing left lastError s (a :: todo)) log →
      Announces log a .wrote → P log (.artifactReady a))
    (h : Reached settings id source σ) : Along P σ.steps :=
  along_of_histories (fun _ _ hhistory => hhistory.along hplain hannounced) h

/-- Only the terminal event of a scene is terminal, and it stands behind what the task wrote. -/
theorem events_of_reached (h : Reached settings id source σ) :
    (∀ event ∈ acceptedIn σ.steps, event.isTerminal = false) ∧
      (σ.events = acceptedIn σ.steps ∨ ∃ halt event,
        Halted settings id source σ.steps halt ∧ halt.terminal? settings.timeoutMs = some event ∧
        event.isTerminal = true ∧ σ.events = acceptedIn σ.steps ++ [event]) := by
  constructor
  · intro event hevent
    have halong : Along (fun _ event => event.isTerminal = false) σ.steps :=
      along_of_reached (fun _ event hplain => hplain.2) (fun _ _ _ _ _ _ _ _ => rfl) h
    obtain ⟨before, after, hsplit⟩ := List.append_of_mem hevent
    obtain ⟨-, -, -, hterminal⟩ := halong.of_split hsplit
    exact hterminal
  · obtain ⟨tail, halt, -, hhalted, hevents | ⟨event, rfl, hterminal, hevents⟩⟩ :=
      halted_of_reached h
    · exact Or.inl hevents
    · refine Or.inr ⟨halt, event, hhalted, hterminal, Halt.isTerminal_of_terminal? hterminal,
        hevents⟩

/-- An event that is not terminal was accepted along the log. -/
lemma accepted_of_events {before after : List Event} {event : Event}
    (h : Reached settings id source σ) (hsplit : σ.events = before ++ event :: after)
    (hevent : event.isTerminal = false) :
    ∃ after', acceptedIn σ.steps = before ++ event :: after' := by
  rcases (events_of_reached h).2 with hevents | ⟨-, last, -, -, hlast, hevents⟩
  · exact ⟨after, hevents.symm.trans hsplit⟩
  · rw [hevents] at hsplit
    -- the terminal event is the last one, so the event in question stands before it
    rcases List.eq_nil_or_concat after with rfl | ⟨init, e, rfl⟩
    · obtain ⟨-, hlast'⟩ := List.append_inj' hsplit rfl
      obtain rfl : last = event := by simpa using hlast'
      exact absurd hlast (by simp [hevent])
    · rw [List.concat_eq_append, ← List.cons_append, ← List.append_assoc] at hsplit
      obtain ⟨hinit, -⟩ := List.append_inj' hsplit rfl
      exact ⟨init, hinit⟩

/-- If the stream holds a result, the session was completed with it. -/
lemma completed_of_done {result : ConversionResult} (h : Reached settings id source σ)
    (hdone : .done result ∈ σ.events) :
    Halted settings id source σ.steps (.ended (.completed result)) ∧
      σ.events = acceptedIn σ.steps ++ [.done result] := by
  obtain ⟨hplain, hevents | ⟨halt, event, hhalted, hterminal, -, hevents⟩⟩ := events_of_reached h
  · rw [hevents] at hdone
    exact absurd (hplain _ hdone) (by simp [Event.isTerminal])
  · rw [hevents] at hdone
    rcases List.mem_append.mp hdone with hdone | hdone
    · exact absurd (hplain _ hdone) (by simp [Event.isTerminal])
    · obtain rfl := List.mem_singleton.mp hdone
      rcases halt with (result' | ⟨failure, phase⟩ | _) | _ | _
      · obtain rfl := Event.done.inj (Option.some.inj hterminal)
        exact ⟨hhalted, hevents⟩
      all_goals exact absurd hterminal (by simp [Halt.terminal?, Ending.terminal?])

end Scene
end ContractConversion
