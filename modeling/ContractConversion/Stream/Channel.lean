/-!
# Bounded channels

A channel keeps everything that was ever put into it, in order, and how much of it the reader has
got. The rest waits in the buffer, which has a limit. A reader that is gone gets nothing more, and
nothing more is accepted.
-/

namespace ContractConversion

/-- A bounded channel with its whole history. -/
structure Channel (α : Type) where
  capacity : Nat
  /-- Everything accepted so far, the oldest first. -/
  history : List α := []
  /-- How much of it the reader has got. -/
  received : Nat := 0
  /-- Whether the reader is still there. -/
  connected : Bool := true
  deriving DecidableEq, Repr

/-- What becomes of a message. -/
inductive Offer where
  | accepted
  | disconnected
  /-- The buffer is full, so the writer has to wait. -/
  | blocked
  deriving DecidableEq, Repr

namespace Channel

variable {α : Type}

/-- What the reader has not got yet. -/
def waiting (c : Channel α) : List α :=
  c.history.drop c.received

/-- What the reader has got. -/
def delivered (c : Channel α) : List α :=
  c.history.take c.received

/-- Offers a message: it is accepted if the reader is there and the buffer has room. -/
def offer (c : Channel α) (a : α) : Channel α × Offer :=
  if !c.connected then (c, .disconnected)
  else if c.capacity ≤ c.waiting.length then (c, .blocked)
  else ({ c with history := c.history ++ [a] }, .accepted)

/-- The reader, if it is there, takes the next message, if there is one. -/
def take (c : Channel α) : Channel α × Option α :=
  if !c.connected then (c, none)
  else
    match c.waiting with
    | [] => (c, none)
    | a :: _ => ({ c with received := c.received + 1 }, some a)

/-- The reader takes everything that waits. -/
def drain (c : Channel α) : Channel α :=
  { c with received := c.history.length }

/-- The reader goes away. -/
def disconnect (c : Channel α) : Channel α :=
  { c with connected := false }

end Channel

end ContractConversion
