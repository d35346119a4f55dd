import ContractConversion.Event
import ContractConversion.Generation
import ContractConversion.Repair.Merge

/-!
# The state of a session

A session owns the plan, the artifacts and what it has spent. Its first generated answer fixes the
mode and the order of the artifacts; every later answer is merged over the accepted artifacts.
-/

namespace ContractConversion

open Json (Value)

/-- Everything that one session owns. -/
structure SessionState where
  id : Uuid
  status : Status := .idle
  attempt : Nat := 0
  mode : Option Mode := none
  /-- The names of the artifacts, fixed together with the mode. -/
  order : List String := []
  artifacts : List Artifact := []
  analysis : Value := .null
  plan : Plan := {}
  deployment : Option Value := none
  usage : Usage := {}
  deriving DecidableEq, Repr

/-- Why an attempt gave no artifacts to validate. A fault of the oracle uses the attempt up, a fault
of merging ends the session. -/
inductive AttemptFault where
  | oracle (fault : OracleFault)
  | merge (fault : MergeFault)
  deriving DecidableEq, Repr

namespace SessionState

/-- The artifacts that passed validation. -/
def accepted (s : SessionState) : List Artifact :=
  s.artifacts.filter (·.validated)

/-- The artifacts that the next repair is about. -/
def retryBatch (s : SessionState) : List Artifact :=
  s.artifacts.filter fun a => !a.validated

/-- There are artifacts, and all of them passed. -/
def allValid (s : SessionState) : Bool :=
  !s.artifacts.isEmpty && s.artifacts.all (·.validated)

/-- The name and the error of the first artifact that did not pass. -/
def firstError? (s : SessionState) : Option String :=
  (s.artifacts.find? fun a => !a.validated).map fun a => a.name ++ ": " ++ a.errorText

/-- Takes in the answer to the current attempt: the first one as it is, a later one merged over the
accepted artifacts. -/
def applyOutput (s : SessionState) (data : Value) : Except AttemptFault SessionState :=
  match s.mode with
  | none => do
    let output ← (Generation.classify data).mapError .oracle
    let artifacts := output.artifacts s.attempt s.plan.singleName
    return { s with
      mode := some output.mode
      order := artifacts.map (·.name)
      artifacts
      deployment := output.deployment }
  | some mode => do
    let output ← (Generation.parseAs mode data).mapError .oracle
    let batch := output.artifacts s.attempt s.plan.singleName
    let artifacts ← (Repair.merge s.accepted batch s.order).mapError .merge
    return { s with artifacts }

end SessionState

end ContractConversion
