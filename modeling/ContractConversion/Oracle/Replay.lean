import ContractConversion.Oracle.Completion
import ContractConversion.Oracle.Fault

/-!
# Replayed completions

A replay answers each call with the next of its replies, until there are none left. A call can be
held at a gate until the gate is released; a gate that was released before its call does not hold
it.
-/

namespace ContractConversion

open Json (Value)

/-- A point where the call of a number waits. -/
structure Gate where
  number : Nat
  released : Bool := false
  deriving DecidableEq, Repr

/-- Replies that are left, and what was asked so far. -/
structure Replay where
  replies : List (Except OracleFault Value) := []
  gates : List Gate := []
  /-- The requests, the last first. -/
  requests : List CompletionRequest := []

namespace Replay

/-- The number of calls so far. -/
def calls (r : Replay) : Nat :=
  r.requests.length

/-- Adds a gate for the call of a number, counted from 1. -/
def hold (r : Replay) (number : Nat) : Replay :=
  { r with gates := r.gates ++ [⟨number, false⟩] }

/-- Releases the gates of a number. -/
def release (r : Replay) (number : Nat) : Replay :=
  { r with gates := r.gates.map fun g => if g.number = number then { g with released := true } else
  g }

/-- Whether the call of a number has to wait. Only the first gate of the number counts. -/
def holds (r : Replay) (number : Nat) : Bool :=
  match r.gates.find? (·.number = number) with
  | some gate => !gate.released
  | none => false

/-- The fault of a call for which no reply is left. -/
def exhausted : OracleFault :=
  .unavailable "script exhausted"

/-- The next reply. -/
def next (r : Replay) : Replay × Except OracleFault Completion :=
  match r.replies with
  | [] => (r, .error exhausted)
  | reply :: rest => ({ r with replies := rest }, reply.map fun data => ⟨data, ⟨10, 10⟩⟩)

/-- A call; there is no answer if it is held. -/
def complete (r : Replay) (request : CompletionRequest) :
    Replay × Option (Except OracleFault Completion) :=
  let r := { r with requests := request :: r.requests }
  if r.holds r.calls then (r, none)
  else
    let (r, answer) := r.next
    (r, some answer)

end Replay

end ContractConversion
