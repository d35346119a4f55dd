import ContractConversion.Configuration.Basic
import ContractConversion.Json.Record
import ContractConversion.Toml.Parser
import ContractConversion.Toml.Printer

/-!
# The configuration file

A configuration is written as TOML, one section after the other, without the values that are absent.
It is read from a TOML document or from JSON. What the document leaves out takes its default, and
sections and settings of other names are passed over.
-/

namespace ContractConversion.Configuration

open Json

namespace Wire

def server : Codec Server :=
  .record [String, Nat, Nat, Nat] "ServerSection"
    (.defaulted "host" .string ({} : Server).host, .defaulted "port" .u16 ({} : Server).port,
      .defaulted "max_sessions" .size ({} : Server).maxSessions,
      .defaulted "session_timeout_secs" .u64 ({} : Server).sessionTimeoutSecs, ())
    (fun s => (s.host, s.port, s.maxSessions, s.sessionTimeoutSecs, ()))
    (fun (host, port, maxSessions, sessionTimeoutSecs, ()) =>
      ⟨host, port, maxSessions, sessionTimeoutSecs⟩)

def limits : Codec Limits :=
  .record [Nat, Nat] "LimitsSection"
    (.defaulted "min_source_chars" .size ({} : Limits).minSourceChars,
      .defaulted "max_source_chars" .size ({} : Limits).maxSourceChars, ())
    (fun l => (l.minSourceChars, l.maxSourceChars, ()))
    (fun (minSourceChars, maxSourceChars, ()) => ⟨minSourceChars, maxSourceChars⟩)

def pipeline : Codec Pipeline :=
  .record [Nat] "PipelineSection" (.defaulted "max_attempts" .u32 ({} : Pipeline).maxAttempts, ())
    (fun p => (p.maxAttempts, ()))
    (fun (maxAttempts, ()) => ⟨maxAttempts⟩)

def oracle : Codec Oracle :=
  .record [String, Option String] "OracleSection"
    (.defaulted "claude_cmd" .string ({} : Oracle).command, .optional "model" .string, ())
    (fun o => (o.command, o.model, ()))
    (fun (command, model, ()) => ⟨command, model⟩)

def validator : Codec Validator :=
  .record [String, List String, String] "ValidatorSection"
    (.defaulted "command" .string ({} : Validator).command,
      .defaulted "args" (.list .string) ({} : Validator).args,
      .defaulted "extension" .string ({} : Validator).extension, ())
    (fun v => (v.command, v.args, v.extension, ()))
    (fun (command, args, extension, ()) => ⟨command, args, extension⟩)

def audit : Codec Audit :=
  .record [Bool, String] "AuditSection"
    (.defaulted "enabled" .bool ({} : Audit).enabled, .defaulted "dir" .string ({} : Audit).dir, ())
    (fun a => (a.enabled, a.dir, ()))
    (fun (enabled, dir, ()) => ⟨enabled, dir⟩)

def logFormat : Codec LogFormat :=
  .named [("pretty", .pretty), ("json", .json)] LogFormat.name

def logging : Codec Logging :=
  .record [LogFormat, Option String] "LoggingSection"
    (.defaulted "format" logFormat ({} : Logging).format, .optional "dir" .string, ())
    (fun l => (l.format, l.dir, ()))
    (fun (format, dir, ()) => ⟨format, dir⟩)

def configuration : Codec Configuration :=
  .record [Server, Limits, Pipeline, Oracle, Validator, Audit, Logging] "KilnConfig"
    (.defaulted "server" server {}, .defaulted "limits" limits {},
      .defaulted "pipeline" pipeline {}, .defaulted "oracle" oracle {},
      .defaulted "validator" validator {}, .defaulted "audit" audit {},
      .defaulted "logging" logging {}, ())
    (fun c => (c.server, c.limits, c.pipeline, c.oracle, c.validator, c.audit, c.logging, ()))
    (fun (server, limits, pipeline, oracle, validator, audit, logging, ()) =>
      ⟨server, limits, pipeline, oracle, validator, audit, logging⟩)

end Wire

mutual

/-- The value of a document as JSON. No setting is a float or a time, so that of these only the kind
matters: a time is a table of one foreign member. -/
def ofToml : Toml.Value → Json.Value
  | .str s => .str s
  | .int n => .num (.int n)
  | .float => .num (.double 0)
  | .bool b => .bool b
  | .time => .obj [("$__toml_private_datetime", .null)]
  | .arr items => .arr (ofTomlItems items)
  | .table entries => .obj (ofTomlEntries entries)

/-- The items of an array as JSON. -/
def ofTomlItems : List Toml.Value → List Json.Value
  | [] => []
  | v :: rest => ofToml v :: ofTomlItems rest

/-- The entries of a table as members of an object. -/
def ofTomlEntries : List (String × Toml.Value) → List (String × Json.Value)
  | [] => []
  | (key, v) :: rest => (key, ofToml v) :: ofTomlEntries rest

end

/-- Reads a configuration file, if it is one. -/
def parse (text : String) : Option Configuration := do
  let entries ← Toml.parse text
  (Wire.configuration.decode .settings (Tree.ofValue (.obj (ofTomlEntries entries)))).toOption

/-- The sections of the file. -/
def sections (c : Configuration) : List Toml.Section :=
  [ ⟨"server",
      [("host", .text c.server.host), ("port", .number c.server.port),
        ("max_sessions", .number c.server.maxSessions),
        ("session_timeout_secs", .number c.server.sessionTimeoutSecs)]⟩,
    ⟨"limits",
      [("min_source_chars", .number c.limits.minSourceChars),
        ("max_source_chars", .number c.limits.maxSourceChars)]⟩,
    ⟨"pipeline", [("max_attempts", .number c.pipeline.maxAttempts)]⟩,
    ⟨"oracle",
      ("claude_cmd", .text c.oracle.command) ::
        (c.oracle.model.map fun model => ("model", Toml.Setting.text model)).toList⟩,
    ⟨"validator",
      [("command", .text c.validator.command), ("args", .texts c.validator.args),
        ("extension", .text c.validator.extension)]⟩,
    ⟨"audit", [("enabled", .flag c.audit.enabled), ("dir", .text c.audit.dir)]⟩,
    ⟨"logging",
      ("format", .text c.logging.format.name) ::
        (c.logging.dir.map fun dir => ("dir", Toml.Setting.text dir)).toList⟩ ]

/-- The text of the configuration file. -/
def render (c : Configuration) : String :=
  Toml.render c.sections

end ContractConversion.Configuration
