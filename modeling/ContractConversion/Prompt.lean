import ContractConversion.Json.Printer
import ContractConversion.Oracle.Completion
import ContractConversion.Wire.Models

/-!
# Prompts

What each stage asks for: a fixed instruction, the schema of the answer, and a message with the
source, the results so far, or the artifacts to repair.
-/

namespace ContractConversion

open Json (Value)

namespace Prompt

/-- An object of a schema. -/
def object (members : List (String × Value)) : Value :=
  .ofMembers members

/-- The schema of a value of a simple type. -/
def ofType (name : String) : Value :=
  object [("type", .str name)]

/-- The schema of an array. -/
def arrayOf (items : Value) : Value :=
  object [("type", .str "array"), ("items", items)]

/-- The schema of an object with the given properties. -/
def objectWith (properties : List (String × Value)) (required : List String) : Value :=
  object [("type", .str "object"), ("properties", object properties),
    ("required", .arr (required.map .str))]

def text : Value := ofType "string"

def analysisInstruction : String :=
  "You are analyzing a Solidity smart-contract system before it is " ++
    "rewritten in Compact for the Midnight network. Identify every contract, its state, its " ++
    "external entry points, access control, and cross-contract calls. Note anything that has no " ++
    "direct Compact equivalent (dynamic dispatch, unbounded loops, msg.value, inline assembly)."

def planInstruction : String :=
  "You are planning the Compact rewrite of an analyzed Solidity " ++
    "system. List the Compact contracts to produce, each with a stable PascalCase name, a " ++
    "one-line description and its responsibilities, and list the transactions (entry points) " ++
    "the rewrite must support together with the contracts each one touches."

def generationInstruction : String :=
  "You are writing Compact code for the Midnight network. " ++
    "Produce complete, compilable contracts for the plan. Return a single `code` string when " ++
    "one contract suffices; otherwise return every planned contract under `contracts`, using " ++
    "exactly the planned names, plus deployment metadata describing deployment order and " ++
    "constructor arguments."

def repairInstruction : String :=
  "You are fixing Compact contracts that failed to compile. " ++
    "Return ONLY the contracts listed below, under the same names. Make the smallest edit that " ++
    "fixes each reported error and leave everything else unchanged. Do not return contracts " ++
    "that are not listed."

def analysisSchema : Value :=
  objectWith
    [("summary", text), ("contracts", arrayOf (ofType "object")), ("concerns", arrayOf text)]
    ["summary"]

def planSchema : Value :=
  objectWith
    [("contracts",
        arrayOf (objectWith
          [("name", text), ("description", text), ("responsibilities", text)]
          ["name", "description", "responsibilities"])),
      ("transactions",
        arrayOf (objectWith
          [("name", text), ("description", text), ("contracts", arrayOf text)] ["name"]))]
    ["contracts", "transactions"]

def contractsSchema : Value :=
  arrayOf (objectWith [("name", text), ("code", text), ("role", text)] ["name", "code"])

/-- Code or contracts, so that neither is required. -/
def generationSchema : Value :=
  object [("type", .str "object"),
    ("properties", object
      [("code", text), ("contracts", contractsSchema), ("deployment", ofType "object")])]

def repairSchema : Mode → Value
  | .single => objectWith [("code", text)] ["code"]
  | .multi => objectWith [("contracts", contractsSchema)] ["contracts"]

/-- The section of a message that holds the source. -/
def sourceSection (source : String) : String :=
  "## Solidity source\n\n" ++ source

/-- The section of a message that holds a value. -/
def valueSection (title : String) (v : Value) : String :=
  "## " ++ title ++ "\n\n" ++ v.pretty ++ "\n\n"

def analysis (source : String) : CompletionRequest where
  stage := .analysis
  systemPrompt := analysisInstruction
  schema := analysisSchema
  userMessage := sourceSection source

def plan (source : String) (analysis : Value) : CompletionRequest where
  stage := .plan
  systemPrompt := planInstruction
  schema := planSchema
  userMessage := valueSection "Analysis" analysis ++ sourceSection source

def generate (source : String) (analysis : Value) (plan : Plan) : CompletionRequest where
  stage := .generate
  systemPrompt := generationInstruction
  schema := generationSchema
  userMessage :=
    valueSection "Planned contracts" ((Json.Codec.list Wire.plannedContract).encode plan.contracts)
    ++ valueSection "Transactions" ((Json.Codec.list Wire.transaction).encode plan.transactions) ++
      valueSection "Analysis" analysis ++ sourceSection source

/-- An artifact to repair, with its error and its code. -/
def repairSection (a : Artifact) : String :=
  "\n### " ++ a.name ++ "\n\nError:\n```\n" ++ a.errorText ++ "\n```\n\nCode:\n```compact\n" ++
    a.code ++ "\n```\n"

/-- Asks for the given artifacts only. -/
def repair (mode : Mode) (batch : List Artifact) : CompletionRequest where
  stage := .repair
  systemPrompt := repairInstruction
  schema := repairSchema mode
  userMessage :=
    "## Contracts to fix\n" ++ String.join (batch.map repairSection) ++
      match mode with
      | .single => "\nReturn the fixed contract as a single `code` string.\n"
      | .multi => ""

end Prompt

end ContractConversion
