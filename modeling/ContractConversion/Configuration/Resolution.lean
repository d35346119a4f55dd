import ContractConversion.Configuration.Environment
import ContractConversion.Configuration.File
import ContractConversion.Files

/-!
# Finding the configuration

The configuration is that of a file, if there is one, with the values of the environment.
-/

namespace ContractConversion.Configuration

/-- The name of the configuration file. -/
def fileName : String := "kiln.toml"

/-- Why there is no configuration. -/
inductive ResolutionFault where
  | unreadable (path : String) (fault : FileFault)
  | malformed
  | override (fault : OverrideFault)
  deriving DecidableEq, Repr

/-- The wording, from the outermost message to its reason. -/
def ResolutionFault.messages : ResolutionFault → List String
  | unreadable path fault => ["Failed to read config file: " ++ path, fault.message]
  | malformed => ["Failed to parse " ++ fileName]
  | override fault => fault.messages

/-- The configuration of a file, or the default if there is no such file. -/
def ofFile (fs : Files) (path : String) : Except ResolutionFault Configuration :=
  if fs.contains path then
    match fs.readText path with
    | .error fault => .error (.unreadable path fault)
    | .ok text =>
      match parse text with
      | some c => .ok c
      | none => .error .malformed
  else .ok {}

/-- The configuration in force. -/
def resolve (fs : Files) (path : String) (lookup : String → Option String) :
    Except ResolutionFault Configuration := do
  let c ← ofFile fs path
  match c.override lookup with
  | (c, none) => return c
  | (_, some fault) => throw (.override fault)

/-- Writes a configuration file. -/
def save (c : Configuration) (fs : Files) (path : String) : Except FileFault Files :=
  fs.write path (Text.Utf8.encode c.render)

end ContractConversion.Configuration
