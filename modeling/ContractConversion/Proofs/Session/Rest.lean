import ContractConversion.Proofs.Session.Execution
import ContractConversion.Proofs.Session.Transcript

/-!
# How a session comes to rest

However its parties move, a session ends: a move of the task or the supervisor goes on in a
well-founded order (`Task.Next`), and between two of them the reader has only so many events to take
(`wellFounded_move`).

A scene is at rest when nobody but the reader, by going away, can move. If the reader is there then,
the session is closed and the reader has got everything (`closed_of_atRest`), the terminal event
included (`stream_of_reached`).
-/

namespace ContractConversion

/-! ## Every session ends -/

/-- The second course is what is left of the first one after an answer. -/
inductive Course.Next : Course → Course → Prop
  | emit {event : Event} {next : Emitted → Course} (answer : Emitted) :
      Next (.emit event next) (next answer)
  | announce {a : Artifact} {next : Emitted → Course} (answer : Emitted) :
      Next (.announce a next) (next answer)
  | look {next : Bool → Course} (gone : Bool) : Next (.look next) (next gone)
  | complete {request : CompletionRequest} {next : Except OracleFault Completion → ℕ → Course}
      (answer : Except OracleFault Completion) (elapsed : ℕ) :
      Next (.complete request next) (next answer elapsed)
  | validate {code : String} {next : Except OracleFault Validation → Course}
      (answer : Except OracleFault Validation) : Next (.validate code next) (next answer)
  | record {entry : AuditEntry} {next : Course} : Next (.record entry next) next
  | now {next : Time.Instant → Course} (time : Time.Instant) : Next (.now next) (next time)

/-- What the task and the supervisor come to in one move. -/
inductive Task.Next : Task → Task → Prop
  | goOn {rest next : Course} (h : rest.Next next) : Next (.running rest) (.running next)
  | goOnWaiting {rest next : Course} (h : rest.Next next) : Next (.waiting rest) (.running next)
  | wait {rest : Course} : Next (.running rest) (.waiting rest)
  | stop {rest : Course} {halt : Halt} : Next (.running rest) (.halted halt)
  | stopWaiting {rest : Course} {halt : Halt} : Next (.waiting rest) (.halted halt)
  | close {halt : Halt} : Next (.halted halt) (.closed halt)
  | closeWaits {event : Event} {halt : Halt} : Next (.halted halt) (.closing event halt)
  | closeEnds {event : Event} {halt : Halt} : Next (.closing event halt) (.closed halt)

namespace Task

lemma acc_closed (halt : Halt) : Acc (fun τ σ => Next σ τ) (.closed halt) :=
  ⟨_, fun _ h => nomatch h⟩

lemma acc_closing (event : Event) (halt : Halt) :
    Acc (fun τ σ => Next σ τ) (.closing event halt) := by
  refine ⟨_, fun τ h => ?_⟩
  cases h with
  | closeEnds => exact acc_closed halt

lemma acc_halted (halt : Halt) : Acc (fun τ σ => Next σ τ) (.halted halt) := by
  refine ⟨_, fun τ h => ?_⟩
  cases h with
  | close => exact acc_closed halt
  | closeWaits => exact acc_closing _ halt

/-- A waiting task goes on with the same courses as the running one. -/
lemma acc_waiting {rest : Course}
    (h : ∀ next, rest.Next next → Acc (fun τ σ => Next σ τ) (.running next)) :
    Acc (fun τ σ => Next σ τ) (.waiting rest) := by
  refine ⟨_, fun τ hτ => ?_⟩
  cases hτ with
  | goOnWaiting hnext => exact h _ hnext
  | stopWaiting => exact acc_halted _

lemma acc_running_of_next {rest : Course}
    (h : ∀ next, rest.Next next → Acc (fun τ σ => Next σ τ) (.running next)) :
    Acc (fun τ σ => Next σ τ) (.running rest) := by
  refine ⟨_, fun τ hτ => ?_⟩
  cases hτ with
  | goOn hnext => exact h _ hnext
  | wait => exact acc_waiting h
  | stop => exact acc_halted _

/-- A course is followed to an end. -/
lemma acc_running (rest : Course) : Acc (fun τ σ => Next σ τ) (.running rest) := by
  induction rest with
  | finish ending => exact acc_running_of_next fun _ h => nomatch h
  | emit event next ih =>
    refine acc_running_of_next fun c h => ?_
    cases h with
    | emit answer => exact ih answer
  | announce a next ih =>
    refine acc_running_of_next fun c h => ?_
    cases h with
    | announce answer => exact ih answer
  | look next ih =>
    refine acc_running_of_next fun c h => ?_
    cases h with
    | look gone => exact ih gone
  | complete request next ih =>
    refine acc_running_of_next fun c h => ?_
    cases h with
    | complete answer elapsed => exact ih answer elapsed
  | validate code next ih =>
    refine acc_running_of_next fun c h => ?_
    cases h with
    | validate answer => exact ih answer
  | record entry next ih =>
    refine acc_running_of_next fun c h => ?_
    cases h with
    | record => exact ih
  | now next ih =>
    refine acc_running_of_next fun c h => ?_
    cases h with
    | now time => exact ih time

/-- The task and the supervisor make only so many moves. -/
theorem wellFounded_next : WellFounded (fun τ σ => Next σ τ) := by
  refine ⟨fun task => ?_⟩
  cases task with
  | running rest => exact acc_running rest
  | waiting rest => exact acc_waiting fun next _ => acc_running next
  | halted halt => exact acc_halted halt
  | closing event halt => exact acc_closing event halt
  | closed halt => exact acc_closed halt

end Task

/-- How often the reader can still move, as long as nothing is written. -/
def Emitter.pending (e : Emitter) : ℕ :=
  e.channel.waiting.length + if e.channel.connected then 1 else 0

namespace Scene

variable {budget : ℕ}

/-- A move is one of the reader, which has one less, or the task or the supervisor goes on. -/
lemma Move.decreases {σ τ : Scene} (h : Move budget σ τ) :
    Task.Next σ.task τ.task ∨ τ.task = σ.task ∧ τ.emitter.pending < σ.emitter.pending := by
  cases h with
  | take hreceive =>
    obtain ⟨hc, hwaiting, rfl⟩ := Emitter.receive_some hreceive
    refine Or.inr ⟨rfl, ?_⟩
    have hpos : 0 < _ := List.length_pos_iff.mpr hwaiting
    simp only [Emitter.pending, Channel.waiting, List.length_drop] at hpos ⊢
    omega
  | leave hc =>
    refine Or.inr ⟨rfl, ?_⟩
    simp [Emitter.pending, Emitter.disconnect, Channel.disconnect, Channel.waiting, hc]
  | emit => exact Or.inl (.goOn (.emit _))
  | emitWaits => exact Or.inl .wait
  | emitEnds => exact Or.inl (.goOnWaiting (.emit _))
  | announce => exact Or.inl (.goOn (.announce _))
  | announceWaits => exact Or.inl .wait
  | announceEnds => exact Or.inl (.goOnWaiting (.announce _))
  | look => exact Or.inl (.goOn (.look _))
  | complete answer elapsed => exact Or.inl (.goOn (.complete answer elapsed))
  | validate answer => exact Or.inl (.goOn (.validate answer))
  | record => exact Or.inl (.goOn .record)
  | now time => exact Or.inl (.goOn (.now time))
  | finish => exact Or.inl .stop
  | expire => exact Or.inl .stop
  | expireWaiting => exact Or.inl .stopWaiting
  | panic => exact Or.inl .stop
  | quit => exact Or.inl .close
  | close => exact Or.inl .close
  | closeWaits => exact Or.inl .closeWaits
  | closeEnds => exact Or.inl .closeEnds

/-- **No session goes on for ever**, however its parties move. -/
theorem wellFounded_move (budget : ℕ) : WellFounded (fun τ σ => Move budget σ τ) := by
  -- the reader may only move as long as the task and the supervisor stand still
  have hlex : WellFounded (Prod.Lex (fun τ σ => Task.Next σ τ) fun m n : ℕ => m < n) :=
    WellFounded.prod_lex Task.wellFounded_next Nat.lt_wfRel.wf
  refine Subrelation.wf (fun {τ σ} h => ?_)
    (InvImage.wf (fun σ : Scene => (σ.task, σ.emitter.pending)) hlex)
  rcases h.decreases with hnext | ⟨htask, hlt⟩
  · exact Prod.Lex.left _ _ hnext
  · rw [InvImage, htask]
    exact Prod.Lex.right _ hlt

/-! ## The channel stays sane -/

/-- A move leaves the channel sane. -/
lemma Move.sane {σ τ : Scene} (h : Move budget σ τ) (hs : σ.emitter.Sane) : τ.emitter.Sane := by
  cases h with
  | take hreceive =>
    obtain ⟨-, hwaiting, rfl⟩ := Emitter.receive_some hreceive
    refine ⟨hs.roomy, ?_⟩
    have hpos : 0 < _ := List.length_pos_iff.mpr hwaiting
    simp only [Channel.waiting, List.length_drop] at hpos
    dsimp only
    omega
  | leave => exact ⟨hs.roomy, hs.received_le⟩
  | emit hemit => exact (Emitter.handed_emit hemit).sane hs
  | emitWaits hemit => exact (Emitter.handed_emit hemit).sane hs
  | emitEnds hput => exact (Emitter.handed_put hput).sane hs
  | announce hannounce => exact (Emitter.handed_announce hannounce).sane hs
  | announceWaits hannounce => exact (Emitter.handed_announce hannounce).sane hs
  | announceEnds hput => exact (Emitter.handed_put hput).sane hs
  | close _ hclose => exact (Emitter.handed_close hclose).sane hs
  | closeWaits _ hclose => exact (Emitter.handed_close hclose).sane hs
  | closeEnds hput =>
    have hsane := (Emitter.handed_put hput).sane hs
    exact ⟨hsane.roomy, hsane.received_le⟩
  | _ => exact hs

lemma sane_of_reached {settings : Settings} {id : Uuid} {source : String} {σ : Scene}
    (h : Reached settings id source σ) : σ.emitter.Sane := by
  have hnew : (Emitter.new eventBuffer).Sane := ⟨by decide, by decide⟩
  induction h with
  | refl => exact hnew
  | tail _ hmove ih => exact hmove.sane ih

/-! ## Scenes at rest -/

/-- Nobody can move, unless the reader goes away. -/
def AtRest (budget : ℕ) (σ : Scene) : Prop :=
  ∀ τ, Move budget σ τ → ¬ τ.Attended

/-- A scene is at rest once its session is closed and its reader has got everything. -/
lemma atRest_of_closed {halt : Halt} {e : Emitter} {steps : List Step}
    (h : e.channel.history.length ≤ e.channel.received) :
    AtRest budget ⟨.closed halt, e, steps⟩ := by
  intro τ hmove
  cases hmove with
  | take hreceive =>
    obtain ⟨-, hwaiting, -⟩ := Emitter.receive_some hreceive
    exact absurd (List.drop_eq_nil_of_le h) hwaiting
  | leave => exact Bool.false_ne_true

/-- At rest the reader has got everything, and the session is closed. -/
lemma closed_of_atRest {Q : List Step → Halt → Prop} {σ : Scene} (hsound : Sound budget Q σ)
    (hsane : σ.emitter.Sane) (hatt : σ.Attended) (hrest : AtRest budget σ) :
    σ.received = σ.events ∧ ∃ halt, σ.task = .closed halt := by
  obtain ⟨task, e, steps⟩ := σ
  -- a reader that is there could take what it has not got
  have hall : e.channel.history.length ≤ e.channel.received := by
    refine Nat.le_of_not_lt fun hlt => ?_
    obtain ⟨event, hreceive⟩ := Emitter.receive_of_lt hatt hlt
    exact hrest _ (.take hreceive) hatt
  refine ⟨List.take_of_length_le hall, ?_⟩
  cases task with
  | running rest =>
    -- a task that waits can be cut off, and everything else it can do at once
    exfalso
    cases rest with
    | finish ending => exact hrest _ .finish hatt
    | emit event next => exact hrest _ (.expire rfl) hatt
    | announce a next => exact hrest _ (.expire rfl) hatt
    | look next => exact hrest _ .look hatt
    | complete request next => exact hrest _ (.expire rfl) hatt
    | validate code next => exact hrest _ (.expire rfl) hatt
    | record entry next => exact hrest _ .record hatt
    | now next => exact hrest _ (.now default) hatt
  | waiting rest =>
    obtain ⟨-, step, hstep, -⟩ := hsound
    exact (hrest _ (.expireWaiting hstep) hatt).elim
  | halted halt =>
    cases hterm : halt.terminal? budget with
    | none => exact (hrest _ (.quit hterm) hatt).elim
    | some event =>
      cases hclose : e.close event with
      | mk e' answer =>
        have hatt' : e'.channel.connected = true :=
          (Emitter.handed_close hclose).connected_eq.trans hatt
        by_cases ha : answer = .blocked
        · subst ha
          exact (hrest _ (.closeWaits hterm hclose) hatt').elim
        · exact (hrest _ (.close hterm hclose ha) hatt').elim
  | closing event halt =>
    cases hput : e.put event with
    | mk e' answer =>
      have hatt' : e'.channel.connected = true :=
        (Emitter.handed_put hput).connected_eq.trans hatt
      by_cases ha : answer = .blocked
      · -- the reader has got everything, so there is room
        subst ha
        have hfull := Emitter.full_of_put_blocked hput
        rw [Channel.waiting, List.drop_eq_nil_of_le hall] at hfull
        exact absurd hsane.roomy (Nat.not_lt.mpr hfull)
      · exact (hrest _ (.closeEnds hput ha) hatt').elim
  | closed halt => exact ⟨halt, rfl⟩

end Scene

/-- A session that is cancelled has learnt that its reader is gone. -/
lemma Halted.exists_seesGone {settings : Settings} {id : Uuid} {source : String} {log : List Step}
    (h : Halted settings id source log (.ended .cancelled)) :
    ∃ step ∈ log, step.seesGone = true := by
  cases h with
  | @writeLost event s next log h =>
    exact ⟨.emitted event (some .disconnected), by simp, rfl⟩
  | @askLost quest s log h => exact ⟨.looked true, by simp, rfl⟩
  | @checkLost s log left lastError a checked todo h hdue => exact ⟨.looked true, by simp, rfl⟩
  | @announceLost s log left lastError a todo h ha =>
    exact ⟨.announced a (some .disconnected), by simp, rfl⟩
  | askCut h hhalt => rcases hhalt with hhalt | hhalt <;> exact absurd hhalt (by simp)
  | checkCut h hdue hhalt => rcases hhalt with hhalt | hhalt <;> exact absurd hhalt (by simp)

/-- Only a session that is cancelled has no terminal event. -/
lemma Halt.terminal?_eq_none {halt : Halt} {budget : ℕ} :
    halt.terminal? budget = none ↔ halt = .ended .cancelled := by
  rcases halt with (result | ⟨failure, phase⟩ | _) | _ | _ <;> simp [terminal?, Ending.terminal?]

namespace Scene

variable {settings : Settings} {id : Uuid} {source : String} {σ : Scene}

/-- At rest with its reader there, a session has delivered its terminal event. -/
lemma countP_received_of_atRest (h : Reached settings id source σ) (hatt : σ.Attended)
    (hrest : AtRest settings.timeoutMs σ) : σ.received.countP Event.isTerminal = 1 := by
  have hsound := sound_of_reached ofSource_ends h
  obtain ⟨hreceived, halt, htask⟩ := closed_of_atRest hsound (sane_of_reached h) hatt hrest
  have hplain : (acceptedIn σ.steps).countP Event.isTerminal = 0 :=
    List.countP_eq_zero.mpr fun event hevent => by simp [(events_of_reached h).1 event hevent]
  rw [Sound, htask] at hsound
  obtain ⟨hhalted, ⟨hnone, hholds⟩ | ⟨event, hterminal, hevents⟩ | ⟨-, hgone⟩⟩ := hsound
  · -- without a terminal event the session was cancelled, so the reader is gone
    rw [Halt.terminal?_eq_none] at hnone
    subst hnone
    obtain ⟨step, hstep, hsees⟩ := hhalted.exists_seesGone
    exact absurd hatt (by rw [Attended, hholds.gone step hstep hsees]; exact Bool.false_ne_true)
  · rw [hreceived, hevents, List.countP_append, hplain,
      List.countP_singleton, if_pos (Halt.isTerminal_of_terminal? hterminal)]
  · exact absurd hatt hgone

/-- A session that is cancelled hands in no terminal event. -/
lemma not_isTerminal_of_cancelled (h : Reached settings id source σ) {halt : Halt}
    (htask : σ.task = .closed halt) (hcancelled : halt.outcome = .cancelled) :
    ∀ event ∈ σ.events, event.isTerminal = false := by
  have hsound := sound_of_reached ofSource_ends h
  have hhalt : halt = .ended .cancelled := by
    rcases halt with (result | ⟨failure, phase⟩ | _) | _ | _
    · exact absurd hcancelled (by simp [Halt.outcome])
    · exact absurd hcancelled (by simp [Halt.outcome])
    · rfl
    · exact absurd hcancelled (by simp [Halt.outcome])
    · exact absurd hcancelled (by simp [Halt.outcome])
  rw [Sound, htask] at hsound
  have hevents : σ.events = acceptedIn σ.steps := by
    obtain ⟨-, ⟨-, hholds⟩ | ⟨event, hterminal, -⟩ | ⟨hevents, -⟩⟩ := hsound
    · exact hholds.history
    · rw [Halt.terminal?_eq_none.mpr hhalt] at hterminal
      exact absurd hterminal (by simp)
    · exact hevents
  rw [hevents]
  exact (events_of_reached h).1

/-- **The stream of a session follows the grammar and comes to its end.** The events are a
transcript with at most as many blocks as there are attempts. No session goes on for ever, and when
it is at rest, a reader that did not go away has got exactly one terminal event. A session that is
cancelled has none. -/
theorem stream_of_reached (h : Reached settings id source σ) :
    (∃ t : Transcript, t.WellFormed (max 1 settings.maxAttempts) ∧ t.events = σ.events) ∧
      Acc (fun τ σ => Move settings.timeoutMs σ τ) σ ∧
      (σ.Attended → AtRest settings.timeoutMs σ → σ.received.countP Event.isTerminal = 1) ∧
      (∀ halt, σ.task = .closed halt → halt.outcome = .cancelled →
        ∀ event ∈ σ.events, event.isTerminal = false) :=
  ⟨transcript_of_reached h, (wellFounded_move _).apply σ, countP_received_of_atRest h,
    fun _ htask hcancelled => not_isTerminal_of_cancelled h htask hcancelled⟩

/-- The run with a repair is at rest, and its reader has got one terminal event. -/
theorem stream_of_reached_repaired :
    (∃ t : Transcript, t.WellFormed 3 ∧ t.events = Run.repaired.scene.events) ∧
      Run.repaired.received.countP Event.isTerminal = 1 := by
  obtain ⟨ht, -, hrest, -⟩ := stream_of_reached Run.repaired_reached
  have hatt : Run.repaired.scene.emitter.channel.connected = true := by decide +kernel
  exact ⟨ht, hrest hatt (atRest_of_closed (by decide +kernel))⟩

end Scene
end ContractConversion
