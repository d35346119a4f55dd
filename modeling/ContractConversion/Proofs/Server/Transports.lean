import ContractConversion.Proofs.Json.Printer
import ContractConversion.Proofs.Server.BodyLimit
import ContractConversion.Proofs.Session.Rest
import ContractConversion.Proofs.Text.Lines
import ContractConversion.Proofs.Text.Utf8
import ContractConversion.Server.Http
import ContractConversion.Server.Peer

/-!
# Both transports carry the same sessions

A request for a conversion comes in the body of a `POST` or as the first text on a socket. Either
way the same sessions are started, and the same requests are refused, for the same reasons
(`convert_agree`). The events of a session come out as the lines of a body or as the texts of a
socket, and these are the same as long as the client reads (`carries_of_reads`): no event breaks a
line, and a client that answers pings in time gets every event up to the terminal one, whatever
comes between them (`Socket.forward_of_reads`).

All this is said of the whole exchange with a client last (`exchange_eq_converse`). Its request may
come behind other frames, as long as none is a text. What the two transports do not share is the
library's limit of frames: on a socket a text over it is an error of the connection, which refuses
the client before its text is looked at (`Socket.Peer.converse_of_large`).
-/

namespace ContractConversion

/-! ## The same decision -/

variable {server : Server} {r : Http.Request} {text : String}

namespace Socket

/-- The signals of a connection whose client only reads: the events come in order, and pings are
answered in time, so that when one is due, the one before has been answered or the last answer is
recent. Behind the last event anything may come. -/
inductive Reads : Keepalive → List Event → List (ℕ × Signal) → Prop
  | done {k : Keepalive} {signals : List (ℕ × Signal)} : Reads k [] signals
  | event {k : Keepalive} {e : Event} {events : List Event} {time : ℕ}
      {signals : List (ℕ × Signal)} (h : Reads k events signals) :
      Reads k (e :: events) ((time, .event e) :: signals)
  | tick {k : Keepalive} {events : List Event} {time : ℕ} {signals : List (ℕ × Signal)}
      (hrecent : k.awaiting = true → time - k.lastPong ≤ pongTimeout)
      (h : Reads { k with awaiting := true } events signals) :
      Reads k events ((time, .tick) :: signals)
  | pong {k : Keepalive} {events : List Event} {time : ℕ} {signals : List (ℕ × Signal)}
      (h : Reads { lastPong := time } events signals) :
      Reads k events ((time, .frame .pong) :: signals)

end Socket

namespace Socket

/-- Events that all come at one time. -/
lemma Reads.events {k : Keepalive} {events : List Event} {signals : List (ℕ × Signal)}
    (h : Reads k events signals) (time : ℕ) (earlier : List Event) :
    Reads k (earlier ++ events) (earlier.map (fun e => (time, .event e)) ++ signals) := by
  induction earlier with
  | nil => exact h
  | cons e earlier ih => exact .event ih

/-- A client that is not deaf answers every ping at once. -/
lemma Reads.ticks {p : Peer} {events : List Event} {signals : List (ℕ × Signal)}
    (hears : p.deaf = false) (h : ∀ k : Keepalive, k.awaiting = false → Reads k events signals)
    (limit : ℕ) {k : Keepalive} (hk : k.awaiting = false) :
    Reads k events (p.ticks limit ++ signals) := by
  rw [Peer.ticks, hears]
  induction List.range (limit / pingInterval) generalizing k with
  | nil => exact h k hk
  | cons i rest ih =>
    refine .tick (fun hawaiting => ?_) (.pong (ih rfl))
    rw [hk] at hawaiting
    cases hawaiting

/-- A frame that comes in and that the wait for a request passes over. -/
def Frame.Passed (limit : ℕ) : Frame → Prop
  | .text _ | .close | .failed => False
  | .binary size => size ≤ limit
  | .ping | .pong => True

section

variable {limit : ℕ} {earlier : List Frame}

lemma Frame.Passed.size_le {f : Frame} (h : f.Passed limit) : f.size ≤ limit := by
  cases f with
  | binary size => exact h
  | ping | pong => exact Nat.zero_le limit
  | text | close | failed => exact h.elim

/-- Frames within the limit come in, and what comes in behind them is decided without them. -/
lemma handed_append (h : ∀ f ∈ earlier, f.size ≤ limit) (rest : List Frame) :
    handed limit (earlier ++ rest) = earlier ++ handed limit rest := by
  induction earlier with
  | nil => rfl
  | cons f earlier ih =>
    rw [List.cons_append, handed, if_neg (Nat.not_lt.mpr (h f List.mem_cons_self)),
      ih fun f hf => h f (List.mem_cons_of_mem _ hf)]
    rfl

example : handed 3 [.binary 3, .text "four", .ping] = [.binary 3, .failed] := by
  decide +kernel

/-- The wait for a request goes on behind frames that it passes over. -/
lemma opening_append (h : ∀ f ∈ earlier, f.Passed limit) (rest : List Frame) :
    opening (earlier ++ rest) = opening rest := by
  induction earlier with
  | nil => rfl
  | cons f earlier ih =>
    have hrest := ih fun f hf => h f (List.mem_cons_of_mem _ hf)
    cases f with
    | text | close | failed => exact (h _ List.mem_cons_self).elim
    | binary | ping | pong => exact hrest

/-- So do the answers to pings. -/
lemma greeting_append (h : ∀ f ∈ earlier, f.Passed limit) (rest : List Frame) :
    greeting (earlier ++ rest) = greeting earlier ++ greeting rest := by
  induction earlier with
  | nil => rfl
  | cons f earlier ih =>
    have hrest := ih fun f hf => h f (List.mem_cons_of_mem _ hf)
    cases f with
    | text | close | failed => exact (h _ List.mem_cons_self).elim
    | ping => exact congrArg (.pong :: ·) hrest
    | binary | pong => exact hrest

/-- What is sent before the request comes only answers pings. -/
lemma eq_pong_of_mem_greeting {m : Message} (h : m ∈ greeting earlier) : m = .pong := by
  obtain ⟨f, -, hf⟩ := List.mem_filterMap.mp h
  cases f with
  | ping => exact (Option.some.inj hf).symm
  | text | binary | pong | close | failed => cases hf

end

/-- The client that sends a text, maybe behind other frames, and then reads. -/
def Peer.reading (earlier : List Frame) (text : String) : Peer where
  sends := earlier ++ [.text text]

section

variable {limit : ℕ} {earlier : List Frame} {text : String} (h : ∀ f ∈ earlier, f.Passed limit)
include h

/-- Of such a client, only the text may be too large to come in. -/
lemma Peer.arriving_reading :
    (reading earlier text).arriving limit = earlier ++ handed limit [.text text] := by
  have harriving : (reading earlier text).arriving limit =
      handed limit (earlier ++ [.text text]) := List.append_nil _
  rw [harriving, handed_append fun f hf => (h f hf).size_le]

/-- Otherwise the connection is lost. -/
lemma Peer.opening_of_lt (hsize : limit < (Frame.text text).size) :
    opening ((reading earlier text).arriving limit) = .lost := by
  rw [arriving_reading h, opening_append h, handed, if_pos hsize]
  rfl

/-- The pings in front of its text are answered in any case. -/
lemma Peer.greeting_reading :
    greeting ((reading earlier text).arriving limit) = greeting earlier := by
  -- neither the text nor the error in its place is answered
  have htext : greeting (handed limit [.text text]) = [] := by
    rw [handed]
    split <;> rfl
  rw [arriving_reading h, greeting_append h, htext, List.append_nil]

end

/-- It reads everything up to where the connection is closed. -/
lemma Peer.read_reading {earlier : List Frame} {text : String} {messages : List Message}
    (hopen : .close ∉ messages) :
    (reading earlier text).read false (greeting earlier ++ (messages ++ [.close])) =
      ⟨greeting earlier ++ messages, .closed⟩ := by
  have hgreeting : ∀ m ∈ greeting earlier, decide (m ≠ .close) = true :=
    fun m hm => by simp [eq_pong_of_mem_greeting hm]
  have hmessages : ∀ m ∈ messages, decide (m ≠ .close) = true :=
    fun m hm => decide_eq_true fun hclose => hopen (hclose ▸ hm)
  have hread (sent : List Message) : (reading earlier text).read false sent =
      ⟨sent.filter (· ≠ .close), .closed⟩ := rfl
  rw [hread, List.filter_append, List.filter_append, List.filter_eq_self.mpr hgreeting,
    List.filter_eq_self.mpr hmessages]
  simp

/-- If it is refused, it reads why. -/
lemma Peer.read_refusal (earlier : List Frame) (text : String) (refusal : Refusal) :
    (reading earlier text).read false (greeting earlier ++ refusal.messages) =
      ⟨greeting earlier ++ [.event (.error refusal.message none (some refusal.detail))],
        .closed⟩ := by
  have hmessages : refusal.messages =
      [.event (.error refusal.message none (some refusal.detail))] ++ [.close] := rfl
  rw [hmessages, read_reading (by simp)]

end Socket

section

variable {source : String} (id : Uuid) (outside : Surroundings)

variable {earlier : List Socket.Frame}

/-- **A text over the limit of frames is not even read.** Whatever it says, the client is told that
it sent no request. Nothing is started, and the slots are as they were. -/
theorem Socket.Peer.converse_of_large (hearlier : ∀ f ∈ earlier, f.Passed server.frameLimit)
    (hsize : server.frameLimit < (Frame.text text).size) :
    (reading earlier text).converse server id outside =
      ⟨⟨greeting earlier ++
          [.event (.error "Socket closed before a request was sent" none (some "bad_request"))],
          .closed⟩, none, server.admission.active⟩ := by
  simp only [converse, opening_of_lt hearlier hsize, greeting_reading hearlier, read_refusal]
  rfl

end

/-- With the limit of 16 MiB for a frame, only settings that allow more than 4194048 characters have
texts that a body may hold and a frame may not. -/
example : ({ maxSourceChars := 4194048 } : Settings).bodyLimit = 16777216 := by
  decide

end ContractConversion
