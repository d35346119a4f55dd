import ContractConversion.Admission
import ContractConversion.Proofs.Session.Rest
import ContractConversion.Proofs.Session.Story

/-!
# A slow reader

The task of a session and its supervisor run on their own, and all that connects them with the
reader is the bounded channel. A `Relay` is where the three stand, together with what the tasks
leave behind outside the stream; a `Relay.Move` is one step of one of them, in surroundings that
answer every call in a fixed way. The reader takes its events at any pace, but it does not go away.

Moves are smaller than the way from one wait to the next, so every order of such ways is an order of
moves. Only one event can wait for room at a time, since the supervisor hands in the terminal event
when the task is over: who waits is served in the order of arrival.
-/

namespace ContractConversion

/-! ## The parties and their moves -/

/-- An event that a course hands over. -/
structure Writing where
  event : Event
  act : Emitter → Emitter × Emitted
  /-- How the answer is logged. -/
  step : Option Emitted → Step
  next : Emitted → Course

/-- The event that comes next in a course. -/
def Course.writing? : Course → Option Writing
  | .emit event next => some ⟨event, (·.emit event), .emitted event, next⟩
  | .announce a next => some ⟨.artifactReady a, (·.announce a), .announced a, next⟩
  | _ => none

/-- Where the task of a session stands. -/
inductive SessionTask where
  | running (rest : Course)
  /-- The event that comes next waits for room. -/
  | waiting (rest : Course)
  | halted (halt : Halt)

/-- Where the supervisor of a session stands. -/
inductive Supervisor where
  /-- It waits for the end of the task. -/
  | watching
  | closing
  /-- The terminal event waits for room. -/
  | sending (event : Event)
  | leaving
  | finished

/-- How far the supervisor is from its end. -/
def Supervisor.left : Supervisor → ℕ
  | watching => 4
  | closing => 3
  | sending _ => 2
  | leaving => 1
  | finished => 0

/-- What the tasks of a session leave behind outside its stream. -/
inductive Deed where
  | recorded (entry : AuditEntry)
  /-- The stream accepted the terminal event. -/
  | sent (event : Event)
  /-- The slot of the session was given back. -/
  | released
  deriving DecidableEq

/-- Where the parties of a session stand. Steps and deeds have the last one first. -/
structure Relay where
  session : SessionTask
  supervisor : Supervisor := .watching
  emitter : Emitter := .new eventBuffer
  calls : ℕ := 0
  validations : ℕ := 0
  steps : List Step := []
  deeds : List Deed := []
  slots : Admission

namespace Relay

/-- A session that begins, holding one of the slots. -/
def start (settings : Settings) (id : Uuid) (source : String) (slots : Admission) : Relay where
  session := .running (.ofSource settings id source)
  slots := slots

/-- The events that the reader got. -/
def received (r : Relay) : List Event :=
  r.emitter.channel.delivered

/-- The deed of a terminal event that was handed in. -/
def sending (event : Event) (answer : Emitted) : List Deed :=
  if answer = .wrote then [.sent event] else []

/-- One step of one of the parties. -/
inductive Move (outside : Surroundings) (budget : ℕ) : Relay → Relay → Prop
  /-- The reader takes an event. -/
  | take {r : Relay} {e : Emitter} {event : Event} (h : r.emitter.receive = (e, some event)) :
      Move outside budget r { r with emitter := e }
  | write {r : Relay} {rest : Course} {w : Writing} {e : Emitter} {answer : Emitted}
      (hr : r.session = .running rest) (hw : rest.writing? = some w)
      (h : w.act r.emitter = (e, answer)) (ha : answer ≠ .blocked) :
      Move outside budget r
        { r with
          session := .running (w.next answer)
          emitter := e
          steps := w.step (some answer) :: r.steps }
  | await {r : Relay} {rest : Course} {w : Writing} {e : Emitter}
      (hr : r.session = .running rest) (hw : rest.writing? = some w)
      (h : w.act r.emitter = (e, .blocked)) :
      Move outside budget r { r with session := .waiting rest, emitter := e }
  | resume {r : Relay} {rest : Course} {w : Writing} {e : Emitter} {answer : Emitted}
      (hr : r.session = .waiting rest) (hw : rest.writing? = some w)
      (h : r.emitter.put w.event = (e, answer)) (ha : answer ≠ .blocked) :
      Move outside budget r
        { r with
          session := .running (w.next answer)
          emitter := e
          steps := w.step (some answer) :: r.steps }
  | look {r : Relay} {next : Bool → Course} {gone : Bool}
      (hr : r.session = .running (.look next)) (h : gone = !r.emitter.channel.connected) :
      Move outside budget r
        { r with session := .running (next gone), steps := .looked gone :: r.steps }
  | complete {r : Relay} {request : CompletionRequest}
      {next : Except OracleFault Completion → ℕ → Course} {answer : Except OracleFault Completion}
      (elapsed : ℕ) (hr : r.session = .running (.complete request next))
      (h : outside.complete (r.calls + 1) request = .answers answer) :
      Move outside budget r
        { r with
          session := .running (next answer elapsed)
          calls := r.calls + 1
          steps := .called request (some answer) :: r.steps }
  | validate {r : Relay} {code : String} {next : Except OracleFault Validation → Course}
      {answer : Except OracleFault Validation} (hr : r.session = .running (.validate code next))
      (h : outside.validate (r.validations + 1) code = .answers answer) :
      Move outside budget r
        { r with
          session := .running (next answer)
          validations := r.validations + 1
          steps := .validated code (some answer) :: r.steps }
  | record {r : Relay} {entry : AuditEntry} {next : Course}
      (hr : r.session = .running (.record entry next)) :
      Move outside budget r
        { r with
          session := .running next
          steps := .recorded entry :: r.steps
          deeds := .recorded entry :: r.deeds }
  | now {r : Relay} {next : Time.Instant → Course} (hr : r.session = .running (.now next)) :
      Move outside budget r { r with session := .running (next outside.time) }
  | finish {r : Relay} {ending : Ending} (hr : r.session = .running (.finish ending)) :
      Move outside budget r { r with session := .halted (.ended ending) }
  /-- The budget is over while the task waits for an answer. -/
  | expire {r : Relay} {rest : Course} {step : Step} (hr : r.session = .running rest)
      (h : rest.unanswered? = some step) :
      Move outside budget r { r with session := .halted .timedOut, steps := step :: r.steps }
  /-- The budget is over while the task waits for room. -/
  | expireWaiting {r : Relay} {rest : Course} {step : Step} (hr : r.session = .waiting rest)
      (h : rest.unanswered? = some step) :
      Move outside budget r { r with session := .halted .timedOut, steps := step :: r.steps }
  /-- The task breaks down in a completion call. -/
  | breakCall {r : Relay} {request : CompletionRequest}
      {next : Except OracleFault Completion → ℕ → Course}
      (hr : r.session = .running (.complete request next))
      (h : outside.complete (r.calls + 1) request = .panics) :
      Move outside budget r
        { r with session := .halted .panicked, steps := .called request none :: r.steps }
  /-- The task breaks down in a validation. -/
  | breakValidation {r : Relay} {code : String} {next : Except OracleFault Validation → Course}
      (hr : r.session = .running (.validate code next))
      (h : outside.validate (r.validations + 1) code = .panics) :
      Move outside budget r
        { r with session := .halted .panicked, steps := .validated code none :: r.steps }
  /-- The supervisor sees that the task is over, and records what the task could not record. -/
  | attend {r : Relay} {halt : Halt} (hr : r.session = .halted halt)
      (hs : r.supervisor = .watching) :
      Move outside budget r
        { r with
          supervisor := .closing
          deeds := (halt.entry? budget).toList.map .recorded ++ r.deeds }
  /-- There is no terminal event to hand in. -/
  | quit {r : Relay} {halt : Halt} (hr : r.session = .halted halt) (hs : r.supervisor = .closing)
      (ht : halt.terminal? budget = none) :
      Move outside budget r { r with supervisor := .leaving }
  | close {r : Relay} {halt : Halt} {event : Event} {e : Emitter} {answer : Emitted}
      (hr : r.session = .halted halt) (hs : r.supervisor = .closing)
      (ht : halt.terminal? budget = some event) (h : r.emitter.close event = (e, answer))
      (ha : answer ≠ .blocked) :
      Move outside budget r
        { r with supervisor := .leaving, emitter := e, deeds := sending event answer ++ r.deeds }
  | closeWaits {r : Relay} {halt : Halt} {event : Event} {e : Emitter}
      (hr : r.session = .halted halt) (hs : r.supervisor = .closing)
      (ht : halt.terminal? budget = some event) (h : r.emitter.close event = (e, .blocked)) :
      Move outside budget r { r with supervisor := .sending event, emitter := e }
  | closeEnds {r : Relay} {halt : Halt} {event : Event} {e : Emitter} {answer : Emitted}
      (hr : r.session = .halted halt) (hs : r.supervisor = .sending event)
      (h : r.emitter.put event = (e, answer)) (ha : answer ≠ .blocked) :
      Move outside budget r
        { r with
          supervisor := .leaving
          emitter := { e with delivered := answer == .wrote }
          deeds := sending event answer ++ r.deeds }
  /-- The supervisor gives the slot back. -/
  | release {r : Relay} (hs : r.supervisor = .leaving) :
      Move outside budget r
        { r with
          supervisor := .finished
          deeds := .released :: r.deeds
          slots := r.slots.release }

/-- What a session can come to, whatever the order of the moves. -/
def Reached (outside : Surroundings) (settings : Settings) (id : Uuid) (source : String)
    (slots : Admission) : Relay → Prop :=
  Relation.ReflTransGen (Move outside settings.timeoutMs) (start settings id source slots)

/-- Nobody can move. -/
def AtRest (outside : Surroundings) (budget : ℕ) (r : Relay) : Prop :=
  ∀ r', ¬ Move outside budget r r'

/-! ## The scene of a relay -/

/-- Both tasks as one, which is first that of the session and then that of the supervisor. -/
def task (r : Relay) : Task :=
  match r.session, r.supervisor with
  | .running rest, _ => .running rest
  | .waiting rest, _ => .waiting rest
  | .halted halt, .watching | .halted halt, .closing => .halted halt
  | .halted halt, .sending event => .closing event halt
  | .halted halt, .leaving | .halted halt, .finished => .closed halt

/-- The scene in which the parties stand. -/
def scene (r : Relay) : Scene where
  task := r.task
  emitter := r.emitter
  steps := r.steps

variable {outside : Surroundings} {budget : ℕ} {r r' : Relay}

section

variable {rest : Course} {halt : Halt}

lemma scene_of_running (hr : r.session = .running rest) :
    r.scene = ⟨.running rest, r.emitter, r.steps⟩ := by
  rw [scene, task, hr]

lemma scene_of_waiting (hr : r.session = .waiting rest) :
    r.scene = ⟨.waiting rest, r.emitter, r.steps⟩ := by
  rw [scene, task, hr]

lemma scene_of_halted (hr : r.session = .halted halt)
    (hs : r.supervisor = .watching ∨ r.supervisor = .closing) :
    r.scene = ⟨.halted halt, r.emitter, r.steps⟩ := by
  rw [scene, task, hr]
  rcases hs with hs | hs <;> rw [hs]

lemma scene_of_sending {event : Event} (hr : r.session = .halted halt)
    (hs : r.supervisor = .sending event) : r.scene = ⟨.closing event halt, r.emitter, r.steps⟩ := by
  rw [scene, task, hr, hs]

lemma scene_of_closed (hr : r.session = .halted halt)
    (hs : r.supervisor = .leaving ∨ r.supervisor = .finished) :
    r.scene = ⟨.closed halt, r.emitter, r.steps⟩ := by
  rw [scene, task, hr]
  rcases hs with hs | hs <;> rw [hs]

end

/-- The supervisor does nothing before the task is over. -/
def Watched (r : Relay) : Prop :=
  r.supervisor = .watching ∨ ∃ halt, r.session = .halted halt

lemma Watched.of_running {rest : Course} (h : r.Watched) (hr : r.session = .running rest) :
    r.supervisor = .watching := by
  refine h.resolve_right ?_
  rintro ⟨halt, hhalted⟩
  rw [hr] at hhalted
  cases hhalted

lemma Watched.of_waiting {rest : Course} (h : r.Watched) (hr : r.session = .waiting rest) :
    r.supervisor = .watching := by
  refine h.resolve_right ?_
  rintro ⟨halt, hhalted⟩
  rw [hr] at hhalted
  cases hhalted

lemma Move.watched (h : Move outside budget r r') (hw : r.Watched) : r'.Watched := by
  cases h with
  | take => exact hw
  | write hr | await hr | look hr | complete _ hr | validate hr | record hr | now hr =>
    exact Or.inl (hw.of_running hr)
  | resume hr => exact Or.inl (hw.of_waiting hr)
  | finish | expire | expireWaiting | breakCall | breakValidation => exact Or.inr ⟨_, rfl⟩
  | attend hr | quit hr | close hr | closeWaits hr | closeEnds hr => exact Or.inr ⟨_, hr⟩
  | release hs => exact Or.inr (hw.resolve_left (by simp [hs]))

/-- **A move of a relay is a move of its scene**, or the supervisor goes on unseen. -/
lemma Move.scene (h : Move outside budget r r') (hw : r.Watched) :
    (r'.scene = r.scene ∧ r'.supervisor.left < r.supervisor.left) ∨
      Scene.Move budget r.scene r'.scene := by
  cases h with
  | take hreceive => exact Or.inr (.take hreceive)
  | @write rest w e answer hr hw h ha =>
    rw [scene_of_running hr]
    cases rest with
    | emit event next =>
      obtain rfl := Option.some.inj hw
      exact Or.inr (.emit h ha)
    | announce a next =>
      obtain rfl := Option.some.inj hw
      exact Or.inr (.announce h ha)
    | _ => cases hw
  | @await rest w e hr hw h =>
    rw [scene_of_running hr]
    cases rest with
    | emit event next =>
      obtain rfl := Option.some.inj hw
      exact Or.inr (.emitWaits h)
    | announce a next =>
      obtain rfl := Option.some.inj hw
      exact Or.inr (.announceWaits h)
    | _ => cases hw
  | @resume rest w e answer hr hw h ha =>
    rw [scene_of_waiting hr]
    cases rest with
    | emit event next =>
      obtain rfl := Option.some.inj hw
      exact Or.inr (.emitEnds h ha)
    | announce a next =>
      obtain rfl := Option.some.inj hw
      exact Or.inr (.announceEnds h ha)
    | _ => cases hw
  | look hr hgone =>
    subst hgone
    rw [scene_of_running hr]
    exact Or.inr .look
  | complete elapsed hr =>
    rw [scene_of_running hr]
    exact Or.inr (.complete _ elapsed)
  | validate hr =>
    rw [scene_of_running hr]
    exact Or.inr (.validate _)
  | record hr =>
    rw [scene_of_running hr]
    exact Or.inr .record
  | now hr =>
    rw [scene_of_running hr]
    exact Or.inr (.now _)
  | finish hr =>
    simp only [Relay.scene, task, hr, hw.of_running hr]
    exact Or.inr .finish
  | expire hr hstep =>
    simp only [Relay.scene, task, hr, hw.of_running hr]
    exact Or.inr (.expire hstep)
  | expireWaiting hr hstep =>
    simp only [Relay.scene, task, hr, hw.of_waiting hr]
    exact Or.inr (.expireWaiting hstep)
  | breakCall hr =>
    simp only [Relay.scene, task, hr, hw.of_running hr]
    exact Or.inr (.panic rfl)
  | breakValidation hr =>
    simp only [Relay.scene, task, hr, hw.of_running hr]
    exact Or.inr (.panic rfl)
  | attend hr hs =>
    simp only [Relay.scene, task, hr, hs]
    exact Or.inl ⟨trivial, by decide⟩
  | quit hr hs ht =>
    simp only [Relay.scene, task, hr, hs]
    exact Or.inr (.quit ht)
  | close hr hs ht h ha =>
    simp only [Relay.scene, task, hr, hs]
    exact Or.inr (.close ht h ha)
  | closeWaits hr hs ht h =>
    simp only [Relay.scene, task, hr, hs]
    exact Or.inr (.closeWaits ht h)
  | closeEnds hr hs h ha =>
    simp only [Relay.scene, task, hr, hs]
    exact Or.inr (.closeEnds h ha)
  | release hs =>
    obtain ⟨halt, hr⟩ := hw.resolve_left (by simp [hs])
    simp only [Relay.scene, task, hr, hs]
    exact Or.inl ⟨trivial, by decide⟩

/-! ## Every order of moves comes to rest -/

/-- Handing the next event over does to the channel what a call of the emitter does. -/
lemma handed_writing {rest : Course} {w : Writing} {e e' : Emitter} {answer : Emitted}
    (hw : rest.writing? = some w) (h : w.act e = (e', answer)) : e.Handed e' answer := by
  cases rest with
  | emit event next =>
    obtain rfl := Option.some.inj hw
    exact Emitter.handed_emit h
  | announce a next =>
    obtain rfl := Option.some.inj hw
    exact Emitter.handed_announce h
  | _ => cases hw

/-- The reader does not go away. -/
lemma Move.connected (h : Move outside budget r r') (hc : r.emitter.channel.connected = true) :
    r'.emitter.channel.connected = true := by
  cases h with
  | take hreceive =>
    obtain ⟨-, -, rfl⟩ := Emitter.receive_some hreceive
    exact hc
  | write _ hw h => exact (handed_writing hw h).connected_eq.trans hc
  | await _ hw h => exact (handed_writing hw h).connected_eq.trans hc
  | resume _ _ h => exact (Emitter.handed_put h).connected_eq.trans hc
  | close _ _ _ h => exact (Emitter.handed_close h).connected_eq.trans hc
  | closeWaits _ _ _ h => exact (Emitter.handed_close h).connected_eq.trans hc
  | closeEnds _ _ h => exact (Emitter.handed_put h).connected_eq.trans hc
  | _ => exact hc

/-- What holds of every session, whatever it tells. -/
structure Regular (settings : Settings) (id : Uuid) (source : String) (r : Relay) : Prop where
  watched : r.Watched
  scene : Scene.Reached settings id source r.scene
  connected : r.emitter.channel.connected = true

lemma Regular.move {settings : Settings} {id : Uuid} {source : String}
    (h : r.Regular settings id source) (hm : Move outside settings.timeoutMs r r') :
    r'.Regular settings id source := by
  refine ⟨hm.watched h.watched, ?_, hm.connected h.connected⟩
  rcases hm.scene h.watched with ⟨hsame, -⟩ | hmove
  · rw [hsame]
    exact h.scene
  · exact h.scene.tail hmove

section

variable {settings : Settings} {id : Uuid} {source : String} {slots : Admission}

theorem regular_of_reached (h : Reached outside settings id source slots r) :
    r.Regular settings id source := by
  induction h with
  | refl => exact ⟨Or.inl rfl, .refl, rfl⟩
  | tail _ hm ih => exact ih.move hm

/-- A relay whose supervisor waits for its task makes only so many moves. -/
lemma acc_of_watched (h : r.Watched) : Acc (fun τ σ => Move outside budget σ τ) r := by
  have hlex : WellFounded (Prod.Lex (fun τ σ => Scene.Move budget σ τ) fun m n : ℕ => m < n) :=
    WellFounded.prod_lex (Scene.wellFounded_move _) Nat.lt_wfRel.wf
  have hwatched : ∀ m : Scene × ℕ, ∀ r : Relay, r.Watched → (r.scene, r.supervisor.left) = m →
      Acc (fun τ σ => Move outside budget σ τ) r := by
    intro m
    induction m using hlex.induction with
    | _ m ih =>
      rintro r hw rfl
      refine ⟨r, fun r' hm => ih _ ?_ r' (hm.watched hw) rfl⟩
      rcases hm.scene hw with ⟨hsame, hlt⟩ | hmove
      · rw [hsame]
        exact Prod.Lex.right _ hlt
      · exact Prod.Lex.left _ _ hmove
  exact hwatched _ r h rfl

/-- **No order of moves goes on for ever.** -/
theorem acc_of_reached (h : Reached outside settings id source slots r) :
    Acc (fun τ σ => Move outside settings.timeoutMs σ τ) r :=
  acc_of_watched (regular_of_reached h).watched

/-- When nobody can move and no event would have to wait, both tasks are through. -/
lemma finished_of_unblocked {Q : List Step → Halt → Prop} (hsound : Scene.Sound budget Q r.scene)
    (hroom : ∀ event e, r.emitter.put event ≠ (e, .blocked)) (hrest : AtRest outside budget r) :
    r.supervisor = .finished ∧ ∃ halt, r.session = .halted halt := by
  have hhalted : ∃ halt, r.session = .halted halt := by
    cases hr : r.session with
    | running rest =>
      exfalso
      cases rest with
      | finish ending => exact hrest _ (.finish hr)
      | emit event next => exact hrest _ (.expire hr rfl)
      | announce a next => exact hrest _ (.expire hr rfl)
      | look next => exact hrest _ (.look hr rfl)
      | complete request next => exact hrest _ (.expire hr rfl)
      | validate code next => exact hrest _ (.expire hr rfl)
      | record entry next => exact hrest _ (.record hr)
      | now next => exact hrest _ (.now hr)
    | waiting rest =>
      rw [scene_of_waiting hr] at hsound
      obtain ⟨-, step, hstep, -⟩ := hsound
      exact (hrest _ (.expireWaiting hr hstep)).elim
    | halted halt => exact ⟨halt, rfl⟩
  refine ⟨?_, hhalted⟩
  obtain ⟨halt, hr⟩ := hhalted
  cases hs : r.supervisor with
  | watching => exact (hrest _ (.attend hr hs)).elim
  | closing =>
    exfalso
    cases hterm : halt.terminal? budget with
    | none => exact hrest _ (.quit hr hs hterm)
    | some event =>
      cases hclose : r.emitter.close event with
      | mk e answer =>
        cases answer with
        | blocked => exact hrest _ (.closeWaits hr hs hterm hclose)
        | _ => exact hrest _ (.close hr hs hterm hclose (by decide))
  | sending event =>
    exfalso
    cases hput : r.emitter.put event with
    | mk e answer =>
      cases answer with
      | blocked => exact hroom event e hput
      | _ => exact hrest _ (.closeEnds hr hs hput (by decide))
  | leaving => exact (hrest _ (.release hs)).elim
  | finished => rfl

/-- **When nobody can move, the reader has got everything and the supervisor is through.** -/
theorem finished_of_atRest (h : Reached outside settings id source slots r)
    (hrest : AtRest outside settings.timeoutMs r) :
    r.supervisor = .finished ∧ r.received = r.emitter.channel.history ∧
      ∃ halt, r.session = .halted halt := by
  have hregular := regular_of_reached h
  have hsane := Scene.sane_of_reached hregular.scene
  have hsound := Scene.sound_of_reached ofSource_ends hregular.scene
  -- otherwise the reader could take one more event
  have hall : r.emitter.channel.history.length ≤ r.emitter.channel.received := by
    refine Nat.le_of_not_lt fun hlt => ?_
    obtain ⟨event, hreceive⟩ := Emitter.receive_of_lt hregular.connected hlt
    exact hrest _ (.take hreceive)
  -- so the buffer is empty, and there is room
  have hroom : ∀ event e, r.emitter.put event ≠ (e, .blocked) := by
    intro event e hput
    have hfull := Emitter.full_of_put_blocked hput
    have hroomy : 0 < r.emitter.channel.capacity := hsane.roomy
    rw [Channel.waiting, List.drop_eq_nil_of_le hall, List.length_nil] at hfull
    omega
  obtain ⟨hfinished, hhalted⟩ := finished_of_unblocked hsound hroom hrest
  exact ⟨hfinished, List.take_of_length_le hall, hhalted⟩

/-- When both tasks are through and the channel is drained, nobody can move. -/
lemma atRest_of_finished {halt : Halt} (hr : r.session = .halted halt)
    (hs : r.supervisor = .finished) (hdrained : r.emitter.receive.2 = none) :
    AtRest outside budget r := by
  intro r' hm
  cases hm with
  | take h =>
    rw [h] at hdrained
    cases hdrained
  | write h | await h | resume h | look h | complete _ h | validate h | record h | now h | finish h
  | expire h | expireWaiting h | breakCall h | breakValidation h =>
    rw [hr] at h
    cases h
  | attend _ h | quit _ h | close _ h | closeWaits _ h | closeEnds _ h | release h =>
    rw [hs] at h
    cases h

/-- **Wherever the parties stand, they can come to rest.** No order of moves goes on for ever, so
this is how each of them ends. -/
theorem exists_atRest (h : Reached outside settings id source slots r) :
    ∃ r', Reached outside settings id source slots r' ∧
      Relation.ReflTransGen (Move outside settings.timeoutMs) r r' ∧
      AtRest outside settings.timeoutMs r' := by
  induction acc_of_reached h with
  | intro r _ ih =>
    by_cases hrest : AtRest outside settings.timeoutMs r
    · exact ⟨r, h, .refl, hrest⟩
    · obtain ⟨next, hm⟩ : ∃ next, Move outside settings.timeoutMs r next := by
        simpa only [AtRest, not_forall, not_not] using hrest
      obtain ⟨r', hreached, hmoves, hrest'⟩ := ih next hm (h.tail hm)
      exact ⟨r', hreached, .head hm hmoves, hrest'⟩

end

end Relay

end ContractConversion
