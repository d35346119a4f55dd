import ContractConversion.Event
import ContractConversion.Stream.Channel

/-!
# The emitter

A session writes its events through an emitter. An artifact is announced once, when it is first
valid. Terminal events have a way of their own: the first one claims the stream, and from then on no
other event is written. A call that has to wait for room in the buffer has already done what comes
before the waiting, and keeps that if it is given up.
-/

namespace ContractConversion

/-- The writing end of a session's stream. -/
structure Emitter where
  channel : Channel Event
  /-- The names of the artifacts announced so far, the last first. -/
  sent : List String := []
  /-- A terminal event was handed in. -/
  claimed : Bool := false
  /-- The channel accepted a terminal event. -/
  delivered : Bool := false
  deriving DecidableEq, Repr

/-- How a call ends. -/
inductive Emitted where
  | wrote
  /-- Nothing had to be written. -/
  | nothing
  | disconnected
  | blocked
  deriving DecidableEq, Repr

/-- The number of events that wait for a reader at most. -/
def eventBuffer : Nat := 64

namespace Emitter

/-- An emitter whose stream has the given buffer. -/
def new (capacity : Nat) : Emitter :=
  { channel := { capacity } }

/-- Notes a name; it is new if it was not noted before. -/
def note (sent : List String) (name : String) : List String × Bool :=
  if name ∈ sent then (sent, false) else (name :: sent, true)

/-- Hands an event to the channel. -/
def put (e : Emitter) (event : Event) : Emitter × Emitted :=
  let (channel, offer) := e.channel.offer event
  ({ e with channel },
    match offer with
    | .accepted => .wrote
    | .disconnected => .disconnected
    | .blocked => .blocked)

/-- Writes a progress event. Terminal events, and all events once the stream is claimed, are
dropped. -/
def emit (e : Emitter) (event : Event) : Emitter × Emitted :=
  if event.isTerminal || e.claimed then (e, .nothing) else e.put event

/-- Announces a valid artifact whose name was not announced before. -/
def announce (e : Emitter) (a : Artifact) : Emitter × Emitted :=
  if !a.validated then (e, .nothing)
  else
    let (sent, first) := note e.sent a.name
    if first then
      match ({ e with sent } : Emitter).emit (.artifactReady a) with
      | (e, .nothing) => (e, .wrote)
      | r => r
    else (e, .nothing)

/-- Writes the terminal event, unless the stream is claimed already. -/
def close (e : Emitter) (event : Event) : Emitter × Emitted :=
  if e.claimed then (e, .nothing)
  else
    match ({ e with claimed := true } : Emitter).put event with
    | (e, .wrote) => ({ e with delivered := true }, .wrote)
    | r => r

/-- The reader takes the next event. -/
def receive (e : Emitter) : Emitter × Option Event :=
  let (channel, event) := e.channel.take
  ({ e with channel }, event)

/-- The reader goes away. -/
def disconnect (e : Emitter) : Emitter :=
  { e with channel := e.channel.disconnect }

end Emitter

end ContractConversion
