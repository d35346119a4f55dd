import ContractConversion.Oracle.Fault
import ContractConversion.Repair.Merge

/-!
# Failures of a session

What ends a session with an error: an outside program in one of the first two phases, fixes that
cannot be merged, or attempts that are used up.
-/

namespace ContractConversion

/-- Why a session failed. -/
inductive SessionFailure where
  | oracle (phase : Nat) (fault : OracleFault)
  | merge (fault : MergeFault)
  | attemptsExhausted (attempts : Nat) (firstError : String)
  deriving DecidableEq, Repr

namespace SessionFailure

/-- The wording of the failure. -/
def message : SessionFailure → String
  | oracle phase fault => "Phase " ++ toString phase ++ " failed: " ++ fault.message
  | merge fault => fault.message
  | attemptsExhausted attempts firstError =>
    "Generation did not validate after " ++ toString attempts ++ " attempts: " ++ firstError

/-- The phase that the failure belongs to, if its cause says. -/
def phase? : SessionFailure → Option Nat
  | oracle phase _ => some phase
  | _ => none

/-- The kind of failure. -/
def detail : SessionFailure → String
  | oracle _ _ => "oracle"
  | merge _ => "merge_integrity"
  | attemptsExhausted _ _ => "attempts_exhausted"

end SessionFailure

end ContractConversion
