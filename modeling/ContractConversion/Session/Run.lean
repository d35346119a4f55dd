import ContractConversion.Session.Course
import ContractConversion.Time.Span

/-!
# Runs of a session

A run follows the course of a session in given surroundings: what the calls to the outside answer,
when the reader starts to read, and where it goes away. Time passes only while a session waits, for
a call that never returns or for room in the buffer of its stream. A session that waits until its
time budget is over is cut off there.

A supervisor sends the terminal event, outside the budget, and records the end of a session that was
cut off or broke down.
-/

namespace ContractConversion

open Time (Instant)

/-- How a call to the outside goes. -/
inductive Reaction (α : Type) where
  | answers (answer : α)
  /-- It never returns. -/
  | hangs
  /-- It breaks down, and the session with it. -/
  | panics
  deriving Repr

/-- Where the reader of a session goes away. -/
inductive Departure where
  | never
  /-- Before the session does anything. -/
  | atStart
  /-- When the completion call of this number begins, counted from 1. -/
  | atCall (number : Nat)
  /-- When the validation of this number begins, counted from 1. -/
  | atValidation (number : Nat)
  deriving DecidableEq, Repr

/-- What a session meets outside. Calls are counted from 1. -/
structure Surroundings where
  complete : Nat → CompletionRequest → Reaction (Except OracleFault Completion)
  validate : Nat → String → Reaction (Except OracleFault Validation)
  departure : Departure := .never
  /-- The milliseconds after which the reader starts to read. -/
  readerDelay : Nat := 0
  /-- What the clock shows. -/
  time : Instant := default

/-- One step of a run: what was asked, and the answer if there was one. -/
inductive Step where
  | emitted (event : Event) (answer : Option Emitted)
  | announced (artifact : Artifact) (answer : Option Emitted)
  | looked (gone : Bool)
  | called (request : CompletionRequest) (answer : Option (Except OracleFault Completion))
  | validated (code : String) (answer : Option (Except OracleFault Validation))
  | recorded (entry : AuditEntry)
  deriving Repr

/-- How the course of a session comes to its end. -/
inductive Halt where
  | ended (ending : Ending)
  | timedOut
  | panicked
  deriving DecidableEq, Repr

/-- A run on its way: the steps taken, the last first. -/
structure Progress where
  emitter : Emitter := .new eventBuffer
  /-- The milliseconds since the start. -/
  clock : Nat := 0
  calls : Nat := 0
  validations : Nat := 0
  steps : List Step := []
  deriving Repr

namespace Progress

/-- Adds a step. -/
def log (p : Progress) (step : Step) : Progress :=
  { p with steps := step :: p.steps }

/-- The reader takes everything that waits for it. -/
def read (p : Progress) : Progress :=
  { p with emitter := { p.emitter with channel := p.emitter.channel.drain } }

/-- The reader takes everything that waits for it and goes away, if this is the time for it. -/
def depart (p : Progress) (now : Bool) : Progress :=
  if now then { p.read with emitter := p.read.emitter.disconnect } else p

/-- Waits for room in the buffer: for the reader to start, and then for its next turn. `none` if the
budget is over before. -/
def awaitRoom (outside : Surroundings) (budget : Nat) (p : Progress) : Option Progress :=
  if p.clock < outside.readerDelay then
    if outside.readerDelay ≤ budget then some { p with clock := outside.readerDelay }.read else none
  else if p.clock < budget then some p.read
  else none

/-- Hands an event over by `act`, and waits for room if that is needed. The answer is missing if the
budget is over before. -/
def write (outside : Surroundings) (budget : Nat) (p : Progress) (event : Event)
    (act : Emitter → Emitter × Emitted) : Progress × Option Emitted :=
  match act p.emitter with
  | (emitter, .blocked) =>
    match { p with emitter }.awaitRoom outside budget with
    | none => ({ p with emitter, clock := budget }, none)
    | some p =>
      let (emitter, answer) := p.emitter.put event
      ({ p with emitter }, some answer)
  | (emitter, answer) => ({ p with emitter }, some answer)

end Progress

/-- Follows a course to its end, or to the point where it is cut off. -/
def Course.follow (outside : Surroundings) (budget : Nat) : Course → Progress → Progress × Halt
  | .finish ending, p => (p, .ended ending)
  | .emit event next, p =>
    match p.write outside budget event (·.emit event) with
    | (p, none) => (p.log (.emitted event none), .timedOut)
    | (p, some answer) =>
      (next answer).follow outside budget (p.log (.emitted event (some answer)))
  | .announce a next, p =>
    match p.write outside budget (.artifactReady a) (·.announce a) with
    | (p, none) => (p.log (.announced a none), .timedOut)
    | (p, some answer) =>
      (next answer).follow outside budget (p.log (.announced a (some answer)))
  | .look next, p =>
    let gone := !p.emitter.channel.connected
    (next gone).follow outside budget (p.log (.looked gone))
  | .complete request next, p =>
    let p := { p with calls := p.calls + 1 }
    let p := p.depart (outside.departure = .atCall p.calls)
    match outside.complete p.calls request with
    | .answers answer =>
      (next answer 0).follow outside budget (p.log (.called request (some answer)))
    | .hangs => ({ p with clock := budget }.log (.called request none), .timedOut)
    | .panics => (p.log (.called request none), .panicked)
  | .validate code next, p =>
    let p := { p with validations := p.validations + 1 }
    let p := p.depart (outside.departure = .atValidation p.validations)
    match outside.validate p.validations code with
    | .answers answer =>
      (next answer).follow outside budget (p.log (.validated code (some answer)))
    | .hangs => ({ p with clock := budget }.log (.validated code none), .timedOut)
    | .panics => (p.log (.validated code none), .panicked)
  | .record entry next, p => next.follow outside budget (p.log (.recorded entry))
  | .now next, p => (next outside.time).follow outside budget p

/-- How a session ended, as its supervisor sees it. -/
inductive Outcome where
  | completed
  | failed
  | cancelled
  | timedOut
  | panicked
  deriving DecidableEq, Repr

namespace Halt

/-- The outcome of a session that came to its end in this way. -/
def outcome : Halt → Outcome
  | ended (.completed _) => .completed
  | ended (.failed _ _) => .failed
  | ended .cancelled => .cancelled
  | timedOut => .timedOut
  | panicked => .panicked

/-- The terminal event that the supervisor sends. -/
def terminal? (budget : Nat) : Halt → Option Event
  | ended ending => ending.terminal?
  | timedOut =>
    some (.error ("Session exceeded its " ++ Time.spanText budget ++ " time budget") none
      (some "timeout"))
  | panicked => some (.error "Internal error while converting" none (some "internal"))

/-- What the supervisor records: the end of a session that could not record it. -/
def entry? (budget : Nat) : Halt → Option AuditEntry
  | ended _ => none
  | timedOut =>
    some (.sessionFinished .error 0
      (some ("Session exceeded its " ++ Time.spanText budget ++ " time budget")))
  | panicked => some (.sessionFinished .error 0 (some "internal error"))

end Halt

/-- A run that is over. -/
structure Run where
  steps : List Step
  halt : Halt
  /-- The stream after the terminal event. -/
  emitter : Emitter
  budget : Nat
  /-- The milliseconds from the start to the terminal event. -/
  elapsed : Nat

/-- Sends the terminal event. If the buffer is full it waits for the reader. -/
def Progress.terminate (event : Event) (p : Progress) : Progress :=
  match p.emitter.close event with
  | (emitter, .blocked) =>
    match ({ p with emitter }.read).emitter.put event with
    | (emitter, .wrote) => { p with emitter := { emitter with delivered := true } }
    | (emitter, _) => { p with emitter }
  | (emitter, _) => { p with emitter }

/-- The run of a session that has no more events to come: the reader takes what is left, if it is
still there. -/
def Progress.conclude (p : Progress) : Progress :=
  if p.emitter.channel.connected then p.read else p

namespace Run

/-- The run of a session. -/
def ofSource (settings : Settings) (id : Uuid) (source : String) (outside : Surroundings) : Run :=
  let start := ({} : Progress).depart (outside.departure = .atStart)
  let (p, halt) := (Course.ofSource settings id source).follow outside settings.timeoutMs start
  let closed := match halt.terminal? settings.timeoutMs with
    | some event => p.terminate event
    | none => p
  { steps := p.steps.reverse
    halt
    emitter := closed.conclude.emitter
    budget := settings.timeoutMs
    elapsed := p.clock }

/-- How the session ended. -/
def outcome (r : Run) : Outcome :=
  r.halt.outcome

/-- The events that the stream accepted, in order. -/
def events (r : Run) : List Event :=
  r.emitter.channel.history

/-- The events that the reader got. -/
def received (r : Run) : List Event :=
  r.emitter.channel.delivered

/-- The completion requests, in order. -/
def requests (r : Run) : List CompletionRequest :=
  r.steps.filterMap fun
    | .called request _ => some request
    | _ => none

/-- The code handed to the validator, in order. -/
def validated (r : Run) : List String :=
  r.steps.filterMap fun
    | .validated code _ => some code
    | _ => none

/-- The audit trail. -/
def trail (r : Run) : List AuditEntry :=
  (r.steps.filterMap fun
    | .recorded entry => some entry
    | _ => none) ++ (r.halt.entry? r.budget).toList

end Run

end ContractConversion
