import ContractConversion.Session.Run
import Mathlib.Logic.Relation
import Mathlib.Data.Nat.Notation
import Mathlib.Tactic.Lemma

/-!
# A session, its supervisor and its reader

Three parties share the stream of a session: the task that follows the course, the supervisor that
hands in the terminal event, and the reader, which takes events and may go away. A `Scene` is where
all of them stand, and `Move` is one step of one of them; any party may move next.

* The task asks one thing after the other. Calls to the outside are answered in any way. A writer
  that finds the buffer full waits, and writes once there is room or the reader is gone.
* The budget may be over wherever the task waits for an answer, and the task may break down in a
  call to the outside.
* The supervisor hands in the terminal event when the task is over, and waits for room if need be.

`Reached settings id source` are the scenes that a session can come to.
-/

namespace ContractConversion

/-- The unfinished step of a course that waits for its surroundings. -/
def Course.unanswered? : Course → Option Step
  | .emit event _ => some (.emitted event none)
  | .announce a _ => some (.announced a none)
  | .complete request _ => some (.called request none)
  | .validate code _ => some (.validated code none)
  | _ => none

/-- The unfinished step of a course that calls an outside program. -/
def Course.outside? : Course → Option Step
  | .complete request _ => some (.called request none)
  | .validate code _ => some (.validated code none)
  | _ => none

/-- What the task and the supervisor of a session are at. -/
inductive Task where
  | running (rest : Course)
  /-- The event that comes next has been handed over and waits for room. -/
  | waiting (rest : Course)
  /-- The task is over, and the supervisor has not handed in its terminal event. -/
  | halted (halt : Halt)
  /-- The terminal event waits for room. -/
  | closing (event : Event) (halt : Halt)
  | closed (halt : Halt)

/-- Where the parties of a session stand; the last step of the task comes first. -/
structure Scene where
  task : Task
  emitter : Emitter
  steps : List Step := []

namespace Scene

/-- The scene of a session that begins. -/
def start (settings : Settings) (id : Uuid) (source : String) : Scene where
  task := .running (Course.ofSource settings id source)
  emitter := .new eventBuffer

/-- The events that the stream accepted, in order. -/
def events (σ : Scene) : List Event :=
  σ.emitter.channel.history

/-- The events that the reader got. -/
def received (σ : Scene) : List Event :=
  σ.emitter.channel.delivered

/-- The reader did not go away. -/
def Attended (σ : Scene) : Prop :=
  σ.emitter.channel.connected = true

/-- One step of one of the parties, in a session with the given budget. -/
inductive Move (budget : ℕ) : Scene → Scene → Prop
  /-- The reader takes an event. -/
  | take {task : Task} {e e' : Emitter} {steps : List Step} {event : Event}
      (h : e.receive = (e', some event)) : Move budget ⟨task, e, steps⟩ ⟨task, e', steps⟩
  /-- The reader goes away. -/
  | leave {task : Task} {e : Emitter} {steps : List Step} (h : e.channel.connected = true) :
      Move budget ⟨task, e, steps⟩ ⟨task, e.disconnect, steps⟩
  | emit {event : Event} {next : Emitted → Course} {e e' : Emitter} {steps : List Step}
      {answer : Emitted} (h : e.emit event = (e', answer)) (ha : answer ≠ .blocked) :
      Move budget ⟨.running (.emit event next), e, steps⟩
        ⟨.running (next answer), e', .emitted event (some answer) :: steps⟩
  | emitWaits {event : Event} {next : Emitted → Course} {e e' : Emitter} {steps : List Step}
      (h : e.emit event = (e', .blocked)) :
      Move budget ⟨.running (.emit event next), e, steps⟩
        ⟨.waiting (.emit event next), e', steps⟩
  | emitEnds {event : Event} {next : Emitted → Course} {e e' : Emitter} {steps : List Step}
      {answer : Emitted} (h : e.put event = (e', answer)) (ha : answer ≠ .blocked) :
      Move budget ⟨.waiting (.emit event next), e, steps⟩
        ⟨.running (next answer), e', .emitted event (some answer) :: steps⟩
  | announce {a : Artifact} {next : Emitted → Course} {e e' : Emitter} {steps : List Step}
      {answer : Emitted} (h : e.announce a = (e', answer)) (ha : answer ≠ .blocked) :
      Move budget ⟨.running (.announce a next), e, steps⟩
        ⟨.running (next answer), e', .announced a (some answer) :: steps⟩
  | announceWaits {a : Artifact} {next : Emitted → Course} {e e' : Emitter} {steps : List Step}
      (h : e.announce a = (e', .blocked)) :
      Move budget ⟨.running (.announce a next), e, steps⟩
        ⟨.waiting (.announce a next), e', steps⟩
  | announceEnds {a : Artifact} {next : Emitted → Course} {e e' : Emitter} {steps : List Step}
      {answer : Emitted} (h : e.put (.artifactReady a) = (e', answer)) (ha : answer ≠ .blocked) :
      Move budget ⟨.waiting (.announce a next), e, steps⟩
        ⟨.running (next answer), e', .announced a (some answer) :: steps⟩
  | look {next : Bool → Course} {e : Emitter} {steps : List Step} :
      Move budget ⟨.running (.look next), e, steps⟩
        ⟨.running (next !e.channel.connected), e, .looked (!e.channel.connected) :: steps⟩
  | complete {request : CompletionRequest}
      {next : Except OracleFault Completion → ℕ → Course} {e : Emitter} {steps : List Step}
      (answer : Except OracleFault Completion) (elapsed : ℕ) :
      Move budget ⟨.running (.complete request next), e, steps⟩
        ⟨.running (next answer elapsed), e, .called request (some answer) :: steps⟩
  | validate {code : String} {next : Except OracleFault Validation → Course} {e : Emitter}
      {steps : List Step} (answer : Except OracleFault Validation) :
      Move budget ⟨.running (.validate code next), e, steps⟩
        ⟨.running (next answer), e, .validated code (some answer) :: steps⟩
  | record {entry : AuditEntry} {next : Course} {e : Emitter} {steps : List Step} :
      Move budget ⟨.running (.record entry next), e, steps⟩
        ⟨.running next, e, .recorded entry :: steps⟩
  | now {next : Time.Instant → Course} {e : Emitter} {steps : List Step} (time : Time.Instant) :
      Move budget ⟨.running (.now next), e, steps⟩ ⟨.running (next time), e, steps⟩
  | finish {ending : Ending} {e : Emitter} {steps : List Step} :
      Move budget ⟨.running (.finish ending), e, steps⟩ ⟨.halted (.ended ending), e, steps⟩
  /-- The budget is over while the task waits for an answer. -/
  | expire {rest : Course} {step : Step} {e : Emitter} {steps : List Step}
      (h : rest.unanswered? = some step) :
      Move budget ⟨.running rest, e, steps⟩ ⟨.halted .timedOut, e, step :: steps⟩
  /-- The budget is over while the task waits for room. -/
  | expireWaiting {rest : Course} {step : Step} {e : Emitter} {steps : List Step}
      (h : rest.unanswered? = some step) :
      Move budget ⟨.waiting rest, e, steps⟩ ⟨.halted .timedOut, e, step :: steps⟩
  /-- The task breaks down in a call. -/
  | panic {rest : Course} {step : Step} {e : Emitter} {steps : List Step}
      (h : rest.outside? = some step) :
      Move budget ⟨.running rest, e, steps⟩ ⟨.halted .panicked, e, step :: steps⟩
  /-- There is no terminal event to hand in. -/
  | quit {halt : Halt} {e : Emitter} {steps : List Step} (h : halt.terminal? budget = none) :
      Move budget ⟨.halted halt, e, steps⟩ ⟨.closed halt, e, steps⟩
  | close {halt : Halt} {event : Event} {e e' : Emitter} {steps : List Step} {answer : Emitted}
      (ht : halt.terminal? budget = some event) (h : e.close event = (e', answer))
      (ha : answer ≠ .blocked) : Move budget ⟨.halted halt, e, steps⟩ ⟨.closed halt, e', steps⟩
  | closeWaits {halt : Halt} {event : Event} {e e' : Emitter} {steps : List Step}
      (ht : halt.terminal? budget = some event) (h : e.close event = (e', .blocked)) :
      Move budget ⟨.halted halt, e, steps⟩ ⟨.closing event halt, e', steps⟩
  | closeEnds {halt : Halt} {event : Event} {e e' : Emitter} {steps : List Step} {answer : Emitted}
      (h : e.put event = (e', answer)) (ha : answer ≠ .blocked) :
      Move budget ⟨.closing event halt, e, steps⟩
        ⟨.closed halt, { e' with delivered := answer == .wrote }, steps⟩

/-- The scenes that a session can come to, whatever the order of the moves. -/
def Reached (settings : Settings) (id : Uuid) (source : String) : Scene → Prop :=
  Relation.ReflTransGen (Move settings.timeoutMs) (start settings id source)

end Scene
end ContractConversion
