import ContractConversion.Wire.Models

/-!
# Audit records

The audit trail of a session says when it started, what each completion cost, which artifacts it
announced, and how it ended. A record is written as one object: the session, the time, the name of
what happened under `record`, and its particulars.
-/

namespace ContractConversion

open Json
open Time (Instant)

/-- What happened in a session. -/
inductive AuditEntry where
  | sessionStarted (sourceChars : Nat)
  | oracleCall (phase : Nat) (attempt : Option Nat) (durationMs : Nat) (usage : Usage)
      (error : Option String)
  | artifactPersisted (name : String) (attempt : Nat) (size : Option Nat) (codeChars : Nat)
  | sessionFinished (status : Status) (attempts : Nat) (error : Option String)
  deriving DecidableEq, Repr

/-- What happened in which session, and when. -/
structure AuditRecord where
  sessionId : Uuid
  time : Instant
  entry : AuditEntry
  deriving DecidableEq, Repr

namespace AuditEntry

/-- The name under which an entry is written. -/
def name : AuditEntry → String
  | sessionStarted _ => "session_started"
  | oracleCall _ _ _ _ _ => "oracle_call"
  | artifactPersisted _ _ _ _ => "artifact_persisted"
  | sessionFinished _ _ _ => "session_finished"

end AuditEntry

namespace Wire

def sessionStartedFields : Fields [Nat] :=
  (.required "source_chars" .size, ())

def oracleCallFields : Fields [Nat, Option Nat, Nat, Usage, Option String] :=
  (.required "phase" .u8, .nullable "attempt" .u32, .required "duration_ms" .u64,
    .required "usage" usage, .optional "error" .string, ())

def artifactPersistedFields : Fields [String, Nat, Option Nat, Nat] :=
  (.required "name" .string, .required "attempt" .u32, .nullable "size" .u64,
    .required "code_chars" .size, ())

def sessionFinishedFields : Fields [Status, Nat, Option String] :=
  (.required "status" status, .required "attempts" .u32, .optional "error" .string, ())

/-- The particulars of an entry. -/
def auditMembers : AuditEntry → List (String × Value)
  | .sessionStarted sourceChars => sessionStartedFields.encode (sourceChars, ())
  | .oracleCall phase attempt durationMs usage error =>
    oracleCallFields.encode (phase, attempt, durationMs, usage, error, ())
  | .artifactPersisted name attempt size codeChars =>
    artifactPersistedFields.encode (name, attempt, size, codeChars, ())
  | .sessionFinished status attempts error =>
    sessionFinishedFields.encode (status, attempts, error, ())

/-- Reads the particulars of an entry from members that are set aside. -/
def entryReader (types : List Type) (fields : Fields types) (make : Tuple types → AuditEntry) :
    Members → Except Fault AuditEntry := fun members =>
  (fields.decodeObject .buffered false 0 members).map make

/-- How each entry is read. -/
def auditEntries : List (String × (Members → Except Fault AuditEntry)) :=
  [("session_started", entryReader _ sessionStartedFields
      fun (sourceChars, ()) => .sessionStarted sourceChars),
    ("oracle_call", entryReader _ oracleCallFields
      fun (phase, attempt, durationMs, usage, error, ()) =>
        .oracleCall phase attempt durationMs usage error),
    ("artifact_persisted", entryReader _ artifactPersistedFields
      fun (name, attempt, size, codeChars, ()) =>
        .artifactPersisted name attempt size codeChars),
    ("session_finished", entryReader _ sessionFinishedFields
      fun (status, attempts, error, ()) => .sessionFinished status attempts error)]

/-- The members of a record: its session and its time, as far as they are there, the other members,
and the offset behind the record. -/
structure AuditDraft where
  sessionId : Option Uuid := none
  instant : Option Instant := none
  others : List (String × Tree) := []
  stop : Nat := 0

/-- Reads the session and the time of a record and sets the other members aside. -/
def draftAudit (origin : Origin) (draft : AuditDraft) : Members → Except Fault AuditDraft
  | .nil (.closed stop) => .ok { draft with others := draft.others.reverse, stop }
  | .nil (.cut next _ _) => .error next
  | .cons key _ behind value tail => do
    let name ← key
    if name = "session_id" then
      if draft.sessionId.isSome then throw (.dataAt (.duplicateField name) behind)
      let sessionId ← uuid.decode origin value
      draftAudit origin { draft with sessionId := some sessionId } tail
    else if name = "at" then
      if draft.instant.isSome then throw (.dataAt (.duplicateField name) behind)
      let instant ← instant.decode origin value
      draftAudit origin { draft with instant := some instant } tail
    else
      let _ ← value.read
      draftAudit origin { draft with others := (name, value) :: draft.others } tail

/-- The members among a list of members, without the ones that name the entry. -/
def particulars : List (String × Tree) → Members
  | [] => .nil (.closed 0)
  | (key, value) :: rest =>
    if key = "record" then particulars rest
    else .cons (.ok key) none 0 value (particulars rest)

/-- The reader of the entry that a member names, or the number of one. -/
def entryNamed : Tree → Except Fault (Members → Except Fault AuditEntry)
  | .str read _ _ stop => do Codec.pick auditEntries (← read) stop
  | .num (.ok (.int n)) _ _ stop =>
    match (if 0 ≤ n then auditEntries[n.toNat]? else none) with
    | some (_, reader) => .ok reader
    | none =>
      if 0 ≤ n then
        .error (.dataAt (.invalidValue (.num (.int n)) "variant index 0 <= i < 4") stop)
      else .error (.dataAt (.invalidType (.num (.int n)) "variant identifier") stop)
  | t => .error (t.mismatch "variant identifier")

/-- Reads the entry of a record from the members that were set aside. -/
def decodeEntry (stop : Nat) (others : List (String × Tree)) : Except Fault AuditEntry :=
  match others.filter (·.1 = "record") with
  | [] => .error (.dataAt (.missingField "record") stop)
  | [(_, name)] => do
    let reader ← entryNamed name
    reader (particulars others)
  | (_, name) :: _ => do
    let _ ← entryNamed name
    throw (.dataAt (.duplicateField "record") stop)

/-- The codec of audit records. -/
def auditRecord : Codec AuditRecord where
  encode r := .obj
    (("session_id", uuid.encode r.sessionId) :: ("at", instant.encode r.time) ::
      ("record", .str r.entry.name) :: auditMembers r.entry)
  decode origin
    | .map tooDeep start members => do
      Codec.enter origin tooDeep start
      let draft ← draftAudit origin {} members
      match draft.sessionId, draft.instant with
      | none, _ => throw (.dataAt (.missingField "session_id") draft.stop)
      | _, none => throw (.dataAt (.missingField "at") draft.stop)
      | some sessionId, some instant =>
        return ⟨sessionId, instant, ← decodeEntry draft.stop draft.others⟩
    | t => .error (t.mismatch "struct AuditRecord")

end Wire

namespace AuditRecord

/-- The record as one line, with its line break. -/
def toLine (r : AuditRecord) : String :=
  (Wire.auditRecord.encode r).compact ++ "\n"

/-- Reads a record from a line. -/
def ofLine (line : String) : Except Fault AuditRecord :=
  (Document.parse (Text.symbolsOf line)).readWith (Wire.auditRecord.decode .text)

end AuditRecord

end ContractConversion
