import ContractConversion.Client.Conversion
import ContractConversion.Configuration.EnvironmentFile
import ContractConversion.Files

/-!
# Outcomes

A command finds variables, files and a network. It leaves lines on standard output, notes on
standard error, files and an ending. A failure is told by its outermost message and the reasons
behind it.
-/

namespace ContractConversion.CommandLine

/-- What a command finds. -/
structure Surroundings where
  environment : Environment := []
  files : Files := {}
  /-- The address that a host and a port stand for once they are listened on, or why they cannot
  be. -/
  listen : String → Nat → Except String String
  fetch : Url.Address → Fetch

/-- How a command ends. -/
inductive Ending where
  | done
  /-- The messages from the outermost one to its reason. -/
  | failed (messages : List String)
  /-- The command line cannot be read. -/
  | refused
  deriving DecidableEq, Repr

/-- The exit code. -/
def Ending.code : Ending → Nat
  | done => 0
  | failed _ => 1
  | refused => 2

/-- What a command leaves. -/
structure Outcome where
  output : List String := []
  notes : List String := []
  files : Files
  ending : Ending := .done
  deriving DecidableEq, Repr

/-- A text whose further lines stand behind a margin. -/
def indented (margin text : String) : String :=
  String.ofList (text.toList.flatMap fun c => if c = '\n' then '\n' :: margin.toList else [c])

/-- The lines of reasons, numbered from `n`. -/
def numbered (n : Nat) : List String → List String
  | [] => []
  | reason :: rest =>
    let number := toString n
    let blanks := String.ofList (List.replicate (5 - number.length) ' ')
    (blanks ++ number ++ ": " ++ indented "       " reason) :: numbered (n + 1) rest

/-- The lines that tell a failure. A single reason has no number. -/
def failureLines : List String → List String
  | [] => []
  | [message] => ["Error: " ++ message]
  | [message, reason] =>
    ["Error: " ++ message, "", "Caused by:", "    " ++ indented "    " reason]
  | message :: reasons => ("Error: " ++ message) :: "" :: "Caused by:" :: numbered 0 reasons

/-- Lines as a text, each with its line break. -/
def linesText (lines : List String) : String :=
  String.join (lines.map (· ++ "\n"))

namespace Outcome

/-- All of standard output. -/
def outputText (o : Outcome) : String :=
  linesText o.output

/-- All of standard error. -/
def errorText (o : Outcome) : String :=
  linesText (o.notes ++
    match o.ending with
    | .failed messages => failureLines messages
    | _ => [])

end Outcome

namespace Surroundings

/-- A command that only prints. -/
def prints (s : Surroundings) (output : List String) : Outcome :=
  { output, files := s.files }

/-- A command that fails and leaves the files as they are. -/
def fails (s : Surroundings) (messages : List String) : Outcome :=
  { files := s.files, ending := .failed messages }

end Surroundings

end ContractConversion.CommandLine
