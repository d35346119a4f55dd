/-!
# Admission

A server runs a limited number of sessions. One that is admitted holds a slot until it is over; a
request that finds no slot free is refused, there is no queue.
-/

namespace ContractConversion

/-- The slots of a server. -/
structure Admission where
  limit : Nat
  active : Nat := 0
  deriving DecidableEq, Repr

namespace Admission

/-- Takes a slot if one is free. -/
def take (a : Admission) : Option Admission :=
  if a.active < a.limit then some { a with active := a.active + 1 } else none

/-- Gives a slot back. -/
def release (a : Admission) : Admission :=
  { a with active := a.active - 1 }

end Admission

end ContractConversion
