import ContractConversion.Session.Settings

/-!
# Configuration

The configuration has a section for each part of the program. Every value has a default. Some values
are legal but make no sense; each of these gives a warning.
-/

namespace ContractConversion

namespace Configuration

/-- Where to listen, and how many sessions may run for how long. -/
structure Server where
  host : String := "127.0.0.1"
  port : Nat := 3142
  maxSessions : Nat := 4
  sessionTimeoutSecs : Nat := 900
  deriving DecidableEq, Repr

/-- How long a source may be. -/
structure Limits where
  minSourceChars : Nat := 20
  maxSourceChars : Nat := 200000
  deriving DecidableEq, Repr

/-- How often a session may try. -/
structure Pipeline where
  maxAttempts : Nat := 3
  deriving DecidableEq, Repr

/-- The program that completes requests. -/
structure Oracle where
  command : String := "claude"
  model : Option String := none
  deriving DecidableEq, Repr

/-- The program that checks contracts, and the extension of the files it gets. -/
structure Validator where
  command : String := "compactc"
  args : List String := []
  extension : String := "compact"
  deriving DecidableEq, Repr

/-- Whether and where sessions are recorded. -/
structure Audit where
  enabled : Bool := true
  dir : String := ".kiln/audit"
  deriving DecidableEq, Repr

/-- The form of log lines. -/
inductive LogFormat where
  | pretty
  | json
  deriving DecidableEq, Repr

/-- The form and the place of the log; it goes to standard error if there is no directory. -/
structure Logging where
  format : LogFormat := .pretty
  dir : Option String := none
  deriving DecidableEq, Repr

end Configuration

/-- All sections. -/
structure Configuration where
  server : Configuration.Server := {}
  limits : Configuration.Limits := {}
  pipeline : Configuration.Pipeline := {}
  oracle : Configuration.Oracle := {}
  validator : Configuration.Validator := {}
  audit : Configuration.Audit := {}
  logging : Configuration.Logging := {}
  deriving DecidableEq, Repr

namespace Configuration

/-- The name of a log format. -/
def LogFormat.name : LogFormat → String
  | pretty => "pretty"
  | json => "json"

/-- The address to listen on. -/
def bindAddress (c : Configuration) : String :=
  c.server.host ++ ":" ++ toString c.server.port

/-- The settings of the sessions. -/
def settings (c : Configuration) : Settings where
  maxAttempts := c.pipeline.maxAttempts
  timeoutMs := c.server.sessionTimeoutSecs * 1000
  minSourceChars := c.limits.minSourceChars
  maxSourceChars := c.limits.maxSourceChars

/-- Values that make no sense. -/
inductive Warning where
  | noAttempts
  | noSessions
  | invertedLimits (minimum maximum : Nat)
  | noTime
  | noValidator
  deriving DecidableEq, Repr

/-- The wording of a warning. -/
def Warning.message : Warning → String
  | noAttempts => "pipeline.max_attempts is 0: treated as a single attempt with no repair"
  | noSessions => "server.max_sessions is 0: every request will be rejected"
  | invertedLimits minimum maximum =>
    "limits.min_source_chars (" ++ toString minimum ++ ") exceeds limits.max_source_chars (" ++
      toString maximum ++ ")"
  | noTime => "server.session_timeout_secs is 0: sessions time out immediately"
  | noValidator => "validator.command is empty"

/-- The warnings of a configuration. -/
def warnings (c : Configuration) : List Warning :=
  (if c.pipeline.maxAttempts = 0 then [.noAttempts] else []) ++
  (if c.server.maxSessions = 0 then [.noSessions] else []) ++
  (if c.limits.maxSourceChars < c.limits.minSourceChars then
    [.invertedLimits c.limits.minSourceChars c.limits.maxSourceChars] else []) ++
  (if c.server.sessionTimeoutSecs = 0 then [.noTime] else []) ++
  (if Text.allBlank c.validator.command then [.noValidator] else [])

end Configuration

end ContractConversion
