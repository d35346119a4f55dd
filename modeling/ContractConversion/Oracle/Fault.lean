/-!
# Faults of an oracle

A conversion depends on two outside programs, one that completes prompts and one that validates
code. Either may fail to give an answer.
-/

namespace ContractConversion

/-- Why an outside program gave no answer. -/
inductive OracleFault where
  /-- The program could not be started. -/
  | spawn (command reason : String)
  /-- The program ended with a code other than zero. -/
  | nonZeroExit (code : Int) (stderr : String)
  /-- The answer has not the form that was asked for. -/
  | malformed (reason : String)
  /-- There was no answer for any other reason. -/
  | unavailable (reason : String)
  deriving DecidableEq, Repr

namespace OracleFault

/-- The wording of the fault. -/
def message : OracleFault → String
  | spawn command reason =>
    "Failed to spawn oracle process '" ++ command ++ "': " ++ reason
  | nonZeroExit code stderr =>
    "Oracle process exited with code " ++ toString code ++ ": " ++ stderr
  | malformed reason => "Malformed oracle output: " ++ reason
  | unavailable reason => "Oracle unavailable: " ++ reason

end OracleFault

end ContractConversion
