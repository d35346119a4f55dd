/-!
# Plans

The plan of a conversion lists the contracts to generate and the transactions that they have to
support.
-/

namespace ContractConversion

/-- A contract that is planned. -/
structure PlannedContract where
  name : String
  description : String := ""
  responsibilities : String := ""
  deriving DecidableEq, Repr

/-- An entry point of the converted system, with the names of the contracts that take part. -/
structure Transaction where
  name : String
  description : String := ""
  contracts : List String := []
  deriving DecidableEq, Repr

/-- The contracts to generate and the transactions to support. -/
structure Plan where
  contracts : List PlannedContract := []
  transactions : List Transaction := []
  deriving DecidableEq, Repr

namespace Plan

/-- The name of an only contract: that of the plan's only contract, and otherwise `main`. -/
def singleName (p : Plan) : String :=
  match p.contracts with
  | [only] => only.name
  | _ => "main"

end Plan

end ContractConversion
