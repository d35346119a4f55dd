import ContractConversion.CommandLine.Arguments
import ContractConversion.CommandLine.Outcome
import ContractConversion.Configuration.Resolution

/-!
# The configuration command

It presents the values in force, warns of values that make no sense, or creates a configuration
file. A file that is there is never written over.
-/

namespace ContractConversion.CommandLine

/-- Presents the values in force. -/
def presentConfiguration (s : Surroundings) (path : String) (c : Configuration) : Outcome :=
  s.prints [
    "",
    if s.files.contains path then "Config file: " ++ path
      else "No config file at " ++ path ++ " (using defaults)",
    "Effective values (file, then environment):",
    "",
    c.render]

/-- Tells the warnings. -/
def validateConfiguration (s : Surroundings) (c : Configuration) : Outcome :=
  let verdict := match c.warnings with
    | [] => ["Configuration is valid."]
    | warnings => "Configuration warnings:" :: warnings.map fun w => "  - " ++ w.message
  s.prints (["", "Validating configuration...", ""] ++ verdict ++ [""])

/-- What a new file can be used for. -/
def customizing : List String :=
  ["",
    "You can now customize:",
    "  - [server] host, port, max_sessions, session_timeout_secs",
    "  - [pipeline] max_attempts",
    "  - [oracle] claude_cmd, model and [validator] command, args",
    ""]

/-- Creates a file with the default values, and its folder. -/
def createConfiguration (s : Surroundings) (path : String) : Outcome :=
  if s.files.contains path then
    s.prints [path ++ " already exists.", "Delete it first if you want to recreate it."]
  else
    match s.files.makeFolders (Path.parent path) with
    | .error fault => s.fails [fault.message]
    | .ok files =>
      match Configuration.save {} files path with
      | .error fault =>
        { s.fails ["Failed to write config file: " ++ path, fault.message] with files }
      | .ok files => { s.prints (("Created " ++ path) :: customizing) with files }

/-- Carries out `config`. -/
def configure (s : Surroundings) (path : String) (c : Configuration) : ConfigAction → Outcome
  | .present => presentConfiguration s path c
  | .validate => validateConfiguration s c
  | .create => createConfiguration s path

end ContractConversion.CommandLine
