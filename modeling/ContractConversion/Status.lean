/-!
# The status of a session

A session goes through four numbered phases and ends complete or with an error.
-/

namespace ContractConversion

/-- Where a session stands. -/
inductive Status where
  | idle
  | phase1
  | phase2
  | phase3
  | phase4
  | complete
  | error
  deriving DecidableEq, Repr

namespace Status

/-- Every status, in order. -/
def all : List Status :=
  [idle, phase1, phase2, phase3, phase4, complete, error]

/-- The written name. -/
def name : Status → String
  | idle => "idle"
  | phase1 => "phase1"
  | phase2 => "phase2"
  | phase3 => "phase3"
  | phase4 => "phase4"
  | complete => "complete"
  | error => "error"

/-- Every status with its name. -/
def known : List (String × Status) :=
  all.map fun s => (s.name, s)

/-- The status of a name. -/
def ofName? (name : String) : Option Status :=
  known.lookup name

/-- The objection to a text that names no status. -/
def unknownMessage (text : String) : String :=
  "Invalid session status: " ++ text

/-- A status that a session ends in. -/
def isTerminal : Status → Bool
  | complete | error => true
  | _ => false

/-- The number of a running phase. -/
def phase? : Status → Option Nat
  | phase1 => some 1
  | phase2 => some 2
  | phase3 => some 3
  | phase4 => some 4
  | _ => none

/-- A name is read back as its status. -/
theorem ofName?_name (s : Status) : ofName? s.name = some s := by
  cases s <;> rfl

end Status

end ContractConversion
