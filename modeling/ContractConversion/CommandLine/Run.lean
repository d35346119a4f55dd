import ContractConversion.CommandLine.Configure
import ContractConversion.CommandLine.Convert
import ContractConversion.CommandLine.Inspect
import ContractConversion.CommandLine.Serve

/-!
# Running a command line

An environment file supplies variables first. Then the command line is read, the configuration is
found, the folder of the log is made, and the command is carried out; whichever of these fails first
ends the program.
-/

namespace ContractConversion.CommandLine

/-- The name of the environment file. -/
def environmentFile : String := ".env"

/-- The variable that names the server of conversions. -/
def serverVariable : String := "KILN_SERVER"

/-- The variables that are set, with those of the environment file. -/
def Surroundings.fullEnvironment (s : Surroundings) : Environment :=
  match s.files.find environmentFile with
  | .ok (.file file) => EnvironmentFile.load s.environment file.content
  | _ => s.environment

/-- What becomes of a command line that is no command to carry out. -/
def refuse (s : Surroundings) : Refusal → Outcome
  | .help => s.prints []
  | .version => s.prints ["kiln 0.1.0"]
  | .misuse => { files := s.files, ending := .refused }

/-- Carries out a command. -/
def perform (s : Surroundings) (path : String) (c : Configuration) : Command → Outcome
  | .serve port host _ _ => serve s (atAddress c port host)
  | .convert file server json => convert s c file server json
  | .config action => configure s path c action
  | .audit action => inspect s c action

/-- The files with the folder of the log, if the log goes to one. -/
def logFolder (c : Configuration) (files : Files) : Except FileFault Files :=
  match c.logging.dir with
  | some folder => files.makeFolders folder
  | none => .ok files

/-- Runs a command line. -/
def run (s : Surroundings) (arguments : List String) : Outcome :=
  let environment := s.fullEnvironment
  match parse (environment.lookup serverVariable) arguments with
  | .error refusal => refuse s refusal
  | .ok invocation =>
    let path := invocation.config.getD Configuration.fileName
    match Configuration.resolve s.files path fun name => environment.lookup name with
    | .error fault => s.fails fault.messages
    | .ok c =>
      match logFolder c s.files with
      | .error fault =>
        s.fails ["Failed to create log directory " ++ c.logging.dir.getD "", fault.message]
      | .ok files => perform { s with files } path c invocation.command

end ContractConversion.CommandLine
