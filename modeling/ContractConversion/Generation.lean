import ContractConversion.Oracle.Fault
import ContractConversion.Text.Blank
import ContractConversion.Wire.Models

/-!
# Generated contracts

A generation answers with one contract's code or with a list of contracts. The first answer decides
which of the two a session is about; a list counts when it is not empty, and its names have to be
distinct and not blank. Later answers are read in the session's mode.
-/

namespace ContractConversion

open Json (Value Codec)

/-- A contract as an answer names it. -/
structure GeneratedContract where
  name : String
  code : String
  role : Option String := none
  deriving DecidableEq, Repr

/-- What an answer holds, before the mode is known. -/
structure RawGeneration where
  code : Option String := none
  contracts : Option (List GeneratedContract) := none
  deployment : Option Value := none
  deriving DecidableEq, Repr

namespace Wire

def generatedContract : Codec GeneratedContract :=
  .record [String, String, Option String] "GeneratedContract"
    (.required "name" .string, .required "code" .string, .optional "role" .string, ())
    (fun c => (c.name, c.code, c.role, ()))
    (fun (name, code, role, ()) => ⟨name, code, role⟩)

def rawGeneration : Codec RawGeneration :=
  .record [Option String, Option (List GeneratedContract), Option Value] "RawOutput"
    (.optional "code" .string, .optional "contracts" (.list generatedContract),
      .optional "deployment" .any, ())
    (fun r => (r.code, r.contracts, r.deployment, ()))
    (fun (code, contracts, deployment, ()) => ⟨code, contracts, deployment⟩)

end Wire

/-- An answer in its mode. -/
inductive Generation where
  | single (code : String)
  | multi (contracts : List GeneratedContract) (deployment : Option Value)
  deriving DecidableEq, Repr

namespace Generation

/-- Reads the members of an answer. -/
def raw (data : Value) : Except OracleFault RawGeneration :=
  (Wire.rawGeneration.decode .value (.ofValue data)).mapError fun fault =>
    .malformed ("generation output does not match schema: " ++ fault.message)

/-- The objection to a list of contracts: the first name that is blank or stands before it
already. -/
def nameFault? (seen : List String) : List GeneratedContract → Option OracleFault
  | [] => none
  | c :: rest =>
    if Text.allBlank c.name then some (.malformed "contract with empty name")
    else if c.name ∈ seen then
      some (.malformed ("duplicate contract name '" ++ c.name ++ "'"))
    else nameFault? (c.name :: seen) rest

/-- Decides the mode of a first answer. -/
def classify (data : Value) : Except OracleFault Generation := do
  let r ← raw data
  match r.contracts, r.code with
  | some (c :: rest), _ =>
    match nameFault? [] (c :: rest) with
    | some fault => throw fault
    | none => return .multi (c :: rest) r.deployment
  | _, some code => return .single code
  | _, none => throw (.malformed "generation output has neither contracts nor code")

/-- Reads a later answer in the session's mode; an only contract stands for its code. -/
def parseAs (mode : Mode) (data : Value) : Except OracleFault Generation := do
  let r ← raw data
  match mode with
  | .multi =>
    match r.contracts with
    | some contracts => return .multi contracts r.deployment
    | none => throw (.malformed "repair output is missing contracts")
  | .single =>
    match r.code, r.contracts with
    | some code, _ => return .single code
    | none, some [only] => return .single only.code
    | none, _ => throw (.malformed "repair output is missing code")

/-- The mode of an answer. -/
def mode : Generation → Mode
  | single _ => .single
  | multi _ _ => .multi

/-- The artifacts of contracts, numbered from a position on. -/
def artifactsFrom (attempt : Nat) : Nat → List GeneratedContract → List Artifact
  | _, [] => []
  | order, c :: rest =>
    { name := c.name, code := c.code, role := c.role, order, attempt : Artifact } ::
      artifactsFrom attempt (order + 1) rest

/-- The artifacts of an answer to an attempt. -/
def artifacts (attempt : Nat) (singleName : String) : Generation → List Artifact
  | single code => [{ name := singleName, code, attempt }]
  | multi contracts _ => artifactsFrom attempt 0 contracts

/-- The deployment of an answer with several contracts. -/
def deployment : Generation → Option Value
  | single _ => none
  | multi _ deployment => deployment

end Generation

namespace Plan

/-- Reads a plan. -/
def parse (data : Value) : Except OracleFault Plan :=
  (Wire.plan.decode .value (.ofValue data)).mapError fun fault =>
    .malformed ("plan does not match schema: " ++ fault.message)

end Plan

end ContractConversion
