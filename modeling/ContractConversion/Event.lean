import ContractConversion.Artifact
import ContractConversion.Plan
import ContractConversion.Status
import ContractConversion.Time.Instant
import ContractConversion.Usage
import ContractConversion.Uuid

/-!
# Events

A session tells its reader what happens by events. The last one says that the conversion is done, or
why it failed; only these two are terminal.
-/

namespace ContractConversion

open Json (Value)
open Time (Instant)

/-- The outcome of an attempt's validation, over all artifacts. -/
structure Report where
  attempt : Nat
  passed : Bool
  artifacts : List ArtifactStatus
  validCount : Nat
  failedCount : Nat
  /-- Why the attempt produced nothing to validate. -/
  error : Option String := none
  deriving DecidableEq, Repr

namespace Report

/-- The report on an attempt: it is passed when there is no error, there are artifacts, and all of
them are valid. -/
def ofArtifacts (attempt : Nat) (artifacts : List Artifact) (error : Option String) : Report :=
  let valid := artifacts.countP (·.validated)
  let failed := artifacts.length - valid
  { attempt
    passed := error.isNone && !artifacts.isEmpty && failed == 0
    artifacts := artifacts.map (·.status)
    validCount := valid
    failedCount := failed
    error }

end Report

/-- What a completed session hands over. -/
structure ConversionResult where
  sessionId : Uuid
  mode : Mode
  artifacts : List Artifact
  transactions : List Transaction := []
  deployment : Option Value := none
  attempts : Nat
  usage : Usage := {}
  finishedAt : Instant
  deriving DecidableEq, Repr

/-- What happens in a session. -/
inductive Event where
  | phase1Start (sessionId : Uuid)
  | phase1Complete (analysis : Value) (usage : Usage)
  | phase2Start
  | phase2Complete (contracts : List PlannedContract) (transactions : List Transaction)
      (usage : Usage)
  | phase3Start (attempt : Nat)
  | phase4Start (attempt : Nat) (retrying : List String)
  | validation (report : Report)
  | artifactReady (artifact : Artifact)
  | done (result : ConversionResult)
  | error (message : String) (phase : Option Nat) (detail : Option String)
  deriving DecidableEq, Repr

namespace Event

/-- The name by which an event is written. -/
def name : Event → String
  | phase1Start _ => "phase1_start"
  | phase1Complete _ _ => "phase1_complete"
  | phase2Start => "phase2_start"
  | phase2Complete _ _ _ => "phase2_complete"
  | phase3Start _ => "phase3_start"
  | phase4Start _ _ => "phase4_start"
  | validation _ => "validation"
  | artifactReady _ => "artifact_ready"
  | done _ => "done"
  | error _ _ _ => "error"

/-- The last event of a session. -/
def isTerminal : Event → Bool
  | done _ | error _ _ _ => true
  | _ => false

end Event

end ContractConversion
