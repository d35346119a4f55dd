import ContractConversion.Json.Value

/-!
# Artifacts

A conversion produces artifacts: generated contracts, each with its code and what the validator said
of it. The name is what identifies an artifact within its session.
-/

namespace ContractConversion

open Json (Value)

/-- Whether a session generates one contract or several; its first reply decides. -/
inductive Mode where
  | single
  | multi
  deriving DecidableEq, Repr

namespace Mode

/-- The written name. -/
def name : Mode → String
  | single => "single"
  | multi => "multi"

end Mode

/-- A generated contract. -/
structure Artifact where
  name : String
  code : String
  validated : Bool := false
  /-- What the validator objected to. -/
  validationError : Option String := none
  role : Option String := none
  /-- The place in the session's list of artifacts. -/
  order : Nat := 0
  /-- The size that the validator reported. -/
  size : Option Nat := none
  metadata : Option Value := none
  /-- The attempt that produced the code. -/
  attempt : Nat := 0
  deriving DecidableEq, Repr

/-- The line of a report on one artifact. -/
structure ArtifactStatus where
  name : String
  validated : Bool
  attempt : Nat
  deriving DecidableEq, Repr

namespace Artifact

/-- The artifact's line in a report. -/
def status (a : Artifact) : ArtifactStatus :=
  ⟨a.name, a.validated, a.attempt⟩

/-- What to call the artifact's error, whether or not the validator gave one. -/
def errorText (a : Artifact) : String :=
  a.validationError.getD "validation failed"

end Artifact

end ContractConversion
