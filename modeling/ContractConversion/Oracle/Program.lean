import ContractConversion.Configuration.Basic
import ContractConversion.Files
import ContractConversion.Oracle.Envelope

/-!
# Outside programs as oracles

A completion program gets the message on its standard input and everything else as arguments. A
validator gets the name of a file with the code. What they leave behind, their exit code and their
output, decides the answer. What programs there are and what they do is up to the machine.
-/

namespace ContractConversion

open Json (Value)

/-- What a program that has ended leaves behind. -/
structure ProgramOutput where
  /-- The exit code; there is none if a signal ended the program. -/
  code : Option Nat
  stdout : List UInt8 := []
  stderr : List UInt8 := []
  deriving DecidableEq, Repr

/-- What becomes of a program. -/
inductive Execution where
  | notStarted (reason : String)
  | ended (left : ProgramOutput)
  deriving DecidableEq, Repr

/-- What becomes of a command with arguments where there are some files, and what files there are
after it. -/
abbrev Machine : Type := Files → String → List String → Execution × Files

namespace ProgramOutput

/-- The exit code, with `-1` for an end by a signal. -/
def exitCode (o : ProgramOutput) : Int :=
  match o.code with
  | some code => code
  | none => -1

/-- Whether the program succeeded. -/
def succeeded (o : ProgramOutput) : Bool :=
  o.code = some 0

/-- The output as text without the blanks around it. -/
def printed (o : ProgramOutput) : String :=
  Text.trim (Text.Utf8.lossy o.stdout)

/-- The diagnostics as text without the blanks around them. -/
def diagnostics (o : ProgramOutput) : String :=
  Text.trim (Text.Utf8.lossy o.stderr)

end ProgramOutput

namespace Configuration.Oracle

/-- The prompt with the demand for an object of the schema. -/
def systemPrompt (request : CompletionRequest) : String :=
  request.systemPrompt ++
    "\n\nRespond with exactly one JSON object and nothing else. It must match this JSON schema:\n"
    ++ request.schema.pretty

/-- The arguments of the program. -/
def arguments (o : Configuration.Oracle) (request : CompletionRequest) : List String :=
  ["--print", "--output-format", "json"] ++
    (match o.model with
      | some model => ["--model", model]
      | none => []) ++
    ["--system-prompt", systemPrompt request]

/-- The answer that the program gives. -/
def answer (o : Configuration.Oracle) : Execution → Except OracleFault Completion
  | .notStarted reason => .error (.spawn o.command reason)
  | .ended left =>
    if left.succeeded then Envelope.parse (Text.Utf8.lossy left.stdout)
    else .error (.nonZeroExit left.exitCode left.diagnostics)

end Configuration.Oracle

namespace Configuration.Validator

/-- Writes code into a file for the program, under a name of some free choice with the extension,
and gives the name. -/
def place (v : Configuration.Validator) (files : Files) (folder mark code : String) :
    Except OracleFault (String × Files) :=
  let name := Path.join folder ("kiln-" ++ mark ++ "." ++ v.extension)
  match files.write name (Text.Utf8.encode code) with
  | .ok files => .ok (name, files)
  | .error fault => .error (.unavailable ("failed to create scratch file: " ++ fault.message))

/-- The metadata that a validator prints: JSON, or any text. -/
def metadata? (output : String) : Option Value :=
  if output = "" then none
  else
    match Value.parse (Text.symbolsOf output) with
    | .ok v => some v
    | .error _ => some (.str output)

/-- Why code is not valid: the diagnostics, or else the output, or else the exit code. -/
def complaint (v : Configuration.Validator) (left : ProgramOutput) : String :=
  if left.diagnostics ≠ "" then left.diagnostics
  else if left.printed ≠ "" then left.printed
  else v.command ++ " exited with code " ++ toString left.exitCode

/-- The verdict that the program gives on code. -/
def verdict (v : Configuration.Validator) (code : String) :
    Execution → Except OracleFault Validation
  | .notStarted reason => .error (.spawn v.command reason)
  | .ended left =>
    if left.succeeded then .ok (.valid code.utf8ByteSize (metadata? left.printed))
    else .ok (.invalid (v.complaint left))

/-- Validates code on a machine. The program finds it in a file, which is removed behind it. -/
def validate (v : Configuration.Validator) (machine : Machine) (files : Files)
    (folder mark code : String) : Except OracleFault Validation × Files :=
  match v.place files folder mark code with
  | .error fault => (.error fault, files)
  | .ok (name, files) =>
    let (execution, files) := machine files v.command (v.args ++ [name])
    (v.verdict code execution, files.remove name)

end Configuration.Validator

end ContractConversion
