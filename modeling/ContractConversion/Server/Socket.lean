import ContractConversion.Server.Request
import ContractConversion.Session.Run
import ContractConversion.Wire.Event

/-!
# Conversions over a socket

The first text that a client sends is its request. Then the events of the session go to it, one
message each, up to the terminal one. The server pings from time to time; a client that leaves pings
unanswered for too long, or closes, loses its session. So does one whose connection fails, as it
does at a frame that is too large.
-/

namespace ContractConversion.Socket

/-- What comes in from a client. -/
inductive Frame where
  | text (s : String)
  /-- Some bytes, of which only the number matters. -/
  | binary (size : Nat := 0)
  | ping
  | pong
  | close
  /-- No frame, but an error of the connection. -/
  | failed
  deriving DecidableEq, Repr

/-- The bytes that a frame carries. -/
def Frame.size : Frame → Nat
  | text s => (Text.Utf8.encode s).length
  | binary size => size
  | ping | pong | close | failed => 0

/-- What comes in of the frames that a client sends. At a frame over the limit the connection fails,
and nothing comes in behind it. -/
def handed (limit : Nat) : List Frame → List Frame
  | [] => []
  | f :: rest => if limit < f.size then [.failed] else f :: handed limit rest

/-- What the server sends. -/
inductive Message where
  | event (e : Event)
  | ping
  | pong
  | close
  deriving DecidableEq, Repr

/-! ## The request -/

/-- What the wait for a request comes to. -/
inductive Opening where
  /-- The text of the request, and what is sent after it. -/
  | request (text : String) (rest : List Frame)
  /-- Nothing came in half a minute. -/
  | silence
  | closed
  /-- The connection failed. -/
  | lost
  deriving Repr

/-- Waits for the request: for the first text, unless the client closes or the connection fails. -/
def opening : List Frame → Opening
  | [] => .silence
  | .text s :: rest => .request s rest
  | .close :: _ => .closed
  | .failed :: _ => .lost
  | _ :: rest => opening rest

/-- The answers to the pings that come in before the request. -/
def greeting (arrived : List Frame) : List Message :=
  (arrived.takeWhile fun
    | .text _ | .close | .failed => false
    | _ => true).filterMap fun
      | .ping => some .pong
      | _ => none

/-- Why a client is refused. -/
inductive Refusal where
  | silence
  /-- The connection was over before a request came. -/
  | unsent
  /-- The request cannot be read. -/
  | undecodable (message : String)
  | input (fault : InputFault)
  | busy
  deriving DecidableEq, Repr

namespace Refusal

/-- The wording. -/
def message : Refusal → String
  | silence => "No conversion request received"
  | unsent => "Socket closed before a request was sent"
  | undecodable message => message
  | input fault => fault.message
  | busy => Server.busyText

/-- The kind of refusal. -/
def detail : Refusal → String
  | silence | unsent | undecodable _ => "bad_request"
  | input _ => "input"
  | busy => "busy"

/-- What a refused client gets. -/
def messages (r : Refusal) : List Message :=
  [.event (.error r.message none (some r.detail)), .close]

end Refusal

/-- The source that a request wants converted, if the server can start with it now. -/
def convert (server : Server) (text : String) : Except Refusal String :=
  let input := Text.symbolsOf text
  match ConversionRequest.parse input with
  | .error fault =>
    .error (.undecodable ("Invalid conversion request: " ++ fault.messageIn input))
  | .ok request =>
    match server.settings.checkInput request.source with
    | .error fault => .error (.input fault)
    | .ok () =>
      match server.admission.take with
      | none => .error .busy
      | some _ => .ok request.source

/-! ## The session -/

/-- What happens on a connection while a session runs. -/
inductive Signal where
  /-- A ping comes due. -/
  | tick
  | event (e : Event)
  /-- The session has no more events. -/
  | ended
  | frame (f : Frame)
  deriving DecidableEq, Repr

/-- The milliseconds between two pings. -/
def pingInterval : Nat := 30000

/-- The milliseconds for which a ping may stay unanswered. -/
def pongTimeout : Nat := 60000

/-- What the server knows of the client's answers to its pings. -/
structure Keepalive where
  /-- When the last answer came. -/
  lastPong : Nat := 0
  /-- Whether the last ping is unanswered. -/
  awaiting : Bool := false
  deriving DecidableEq, Repr

/-- What the server sends at a signal, and whether it goes on. -/
def Keepalive.step (k : Keepalive) (time : Nat) : Signal → List Message × Option Keepalive
  | .tick =>
    if k.awaiting && pongTimeout < time - k.lastPong then ([], none)
    else ([.ping], some { k with awaiting := true })
  | .event e => ([.event e], if e.isTerminal then none else some k)
  | .frame .ping => ([.pong], some k)
  | .frame .pong => ([], some { lastPong := time, awaiting := false })
  | .frame (.text _) | .frame (.binary _) => ([], some k)
  | .frame .close | .frame .failed | .ended => ([], none)

/-- What the server sends while signals come in, each with its time. The last message closes the
connection. -/
def forward (k : Keepalive) : List (Nat × Signal) → List Message
  | [] => []
  | (time, signal) :: rest =>
    match k.step time signal with
    | (out, none) => out ++ [.close]
    | (out, some k) => out ++ forward k rest

end ContractConversion.Socket
