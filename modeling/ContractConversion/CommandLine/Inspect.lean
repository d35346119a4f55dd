import ContractConversion.Audit.Trail
import ContractConversion.CommandLine.Arguments
import ContractConversion.CommandLine.Outcome
import ContractConversion.Configuration.Basic

/-!
# The audit command

It presents the trail of a session, one record a line, or lists the sessions that have one.
-/

namespace ContractConversion

/-- A record in words. -/
def AuditEntry.describe : AuditEntry → String
  | sessionStarted sourceChars => "started (" ++ toString sourceChars ++ " chars of source)"
  | oracleCall phase attempt durationMs usage error =>
    let attempt := match attempt with
      | some attempt => " attempt " ++ toString attempt
      | none => ""
    "phase " ++ toString phase ++ attempt ++ " oracle call " ++
      match error with
      | some error => "failed after " ++ toString durationMs ++ "ms: " ++ error
      | none => toString durationMs ++ "ms, " ++ toString usage.total ++ " tokens"
  | artifactPersisted name attempt size _ =>
    "artifact " ++ name ++ " (attempt " ++ toString attempt ++ ", " ++ toString (size.getD 0) ++
      " bytes)"
  | sessionFinished status attempts error =>
    "finished " ++ status.name ++ " after " ++ toString attempts ++ " attempt(s)" ++
      match error with
      | some error => ": " ++ error
      | none => ""

/-- A record as a line: the time of day and what happened. -/
def AuditRecord.describe (r : AuditRecord) : String :=
  "  " ++ r.time.clockText ++ " " ++ r.entry.describe

namespace CommandLine

/-- Presents the trail of a session. -/
def presentTrail (s : Surroundings) (folder session : String) : Outcome :=
  match Uuid.parse session with
  | .error fault => s.fails ["'" ++ session ++ "' is not a session id", fault.message]
  | .ok id =>
    match Trail.load s.files folder id with
    | .error fault => s.fails fault.messages
    | .ok records => s.prints (("Session " ++ id.format) :: records.map AuditRecord.describe)

/-- Lists the sessions that have a trail. -/
def listTrails (s : Surroundings) (folder : String) : Outcome :=
  match Trail.sessions s.files folder with
  | .error fault => s.fails [fault.message]
  | .ok [] => s.prints ["No audited sessions in " ++ folder]
  | .ok ids => s.prints (ids.map Uuid.format)

/-- Carries out `audit`. -/
def inspect (s : Surroundings) (c : Configuration) : AuditAction → Outcome
  | .present session => presentTrail s c.audit.dir session
  | .list => listTrails s c.audit.dir

end CommandLine

end ContractConversion
