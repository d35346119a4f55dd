import ContractConversion.Server.Socket

/-!
# Clients of a socket

A client sends some frames at once and then reads. It answers pings, unless it is deaf: then it
reads nothing for a long time, and reads what it finds after that. It may also close when it has
read enough, or drop the connection without reading. What it reads follows from what the server
sends.
-/

namespace ContractConversion.Socket

/-- How a client behaves. -/
structure Peer where
  sends : List Frame
  /-- It closes after so many events. -/
  closeAfter : Option Nat := none
  /-- It drops the connection when it has sent its frames. -/
  drops : Bool := false
  deaf : Bool := false
  deriving Repr

/-- How a connection is over for its client. -/
inductive Farewell where
  /-- The server closed it. -/
  | closed
  /-- It broke off. -/
  | ended
  /-- The client did not wait for it. -/
  | unread
  deriving DecidableEq, Repr

/-- What a client reads. -/
structure Transcript where
  messages : List Message
  farewell : Farewell
  deriving Repr

/-- A connection that is over. -/
structure Conversation where
  transcript : Transcript
  /-- The run of the session, if one was started. -/
  run : Option Run := none
  /-- The slots taken when the client has read everything. -/
  active : Nat

/-- The milliseconds for which a deaf client reads nothing. -/
def deafness : Nat := 600000

namespace Peer

/-- What comes in from the client: where it drops the connection, this fails. -/
def arriving (p : Peer) (limit : Nat) : List Frame :=
  handed limit p.sends ++ if p.drops then [.failed] else []

/-- Whether the client closes after the events that come at once, while the session goes on. -/
def closes (p : Peer) (run : Run) : Bool :=
  let prompt := run.events.countP (!·.isTerminal)
  !p.deaf && 0 < run.elapsed && p.closeAfter.any fun n => 0 < n && n ≤ prompt

/-- The pings that come due up to a time, with the client's answers. -/
def ticks (p : Peer) (limit : Nat) : List (Nat × Signal) :=
  (List.range (limit / pingInterval)).flatMap fun i =>
    let time := (i + 1) * pingInterval
    (time, .tick) :: if p.deaf then [] else [(time, .frame .pong)]

/-- The signals of a connection while a session runs. All events but the terminal one come at once;
that one may come at the end of the time budget. -/
def signals (p : Peer) (rest : List Frame) (run : Run) : List (Nat × Signal) :=
  let (last, progress) := run.events.partition (·.isTerminal)
  rest.map (fun f => (0, .frame f)) ++
    progress.map (fun e => (0, .event e)) ++
    (if p.closes run then [(0, .frame .close)] else []) ++
    p.ticks run.elapsed ++
    last.map (fun e => (run.elapsed, .event e)) ++ [(run.elapsed, .ended)]

/-- What a client reads of what the server sends. The answer of a deaf client to its first ping
comes when the connection is closed, and breaks it off. -/
def read (p : Peer) (left : Bool) (sent : List Message) : Transcript :=
  let messages := sent.filter (· ≠ .close)
  if p.drops then ⟨[], .unread⟩
  else if left then ⟨messages, .ended⟩
  else if p.deaf && messages.contains .ping then
    ⟨messages.takeWhile (· ≠ .ping) ++ [.ping], .ended⟩
  else ⟨messages, .closed⟩

/-- Whether the session goes on when the client has read everything. -/
def outlived (p : Peer) (gone : Bool) (run : Run) : Bool :=
  (if p.deaf then deafness else if gone then 0 else run.elapsed) < run.elapsed

/-- What becomes of a connection with the client. -/
def converse (server : Server) (id : Uuid) (outside : Surroundings) (p : Peer) : Conversation :=
  let arrived := p.arriving server.frameLimit
  let held := server.admission.active
  let refused (refusal : Refusal) : Conversation :=
    { transcript := p.read false (greeting arrived ++ refusal.messages), active := held }
  match opening arrived with
  | .silence => refused .silence
  | .lost => refused .unsent
  -- the refusal cannot be sent to a client that has closed
  | .closed => { transcript := p.read true (greeting arrived), active := held }
  | .request text rest =>
    match convert server text with
    | .error refusal => refused refusal
    | .ok source =>
      let gone := rest.contains .close || rest.contains .failed
      let outside := if gone then { outside with departure := .atStart } else outside
      let run := Run.ofSource server.settings id source outside
      let left := rest.contains .close || p.closes run
      { transcript := p.read left (greeting arrived ++ forward {} (p.signals rest run))
        run := some run
        active := held + if p.outlived (gone || p.closes run) run then 1 else 0 }

end Peer

end ContractConversion.Socket
