import ContractConversion.Json.Value
import ContractConversion.Oracle.Fault
import ContractConversion.Usage

/-!
# Completions and validations

What is asked of the two outside programs, and what they answer.
-/

namespace ContractConversion

open Json (Value)

/-- The step of a conversion that a completion belongs to. -/
inductive Stage where
  | analysis
  | plan
  | generate
  | repair
  deriving DecidableEq, Repr

namespace Stage

/-- The written name. -/
def name : Stage → String
  | analysis => "analysis"
  | plan => "plan"
  | generate => "generate"
  | repair => "repair"

end Stage

/-- What a completion is asked for: the answer has to be an object that satisfies the schema. -/
structure CompletionRequest where
  stage : Stage
  systemPrompt : String
  schema : Value
  userMessage : String
  deriving DecidableEq, Repr

/-- The answer of a completion, with its cost. -/
structure Completion where
  data : Value
  usage : Usage
  deriving DecidableEq, Repr

/-- The verdict on a piece of code. -/
inductive Validation where
  | valid (size : Nat) (metadata : Option Value)
  | invalid (error : String)
  deriving DecidableEq, Repr

end ContractConversion
