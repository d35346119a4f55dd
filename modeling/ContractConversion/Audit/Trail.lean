import ContractConversion.Audit.Record
import ContractConversion.Files
import ContractConversion.Text.Lines

/-!
# Audit trails

The trail of a session is a file of its own, one record a line. It is named for the session. Blank
lines in it do not count, and a damaged line makes the trail unreadable.
-/

namespace ContractConversion

/-- The extension of a trail. -/
def Trail.extension : String := "jsonl"

/-- Why a trail cannot be read. -/
inductive TrailFault where
  | missing (path : String) (fault : FileFault)
  /-- The number of the line among those that are not blank, from 1. -/
  | malformed (line : Nat) (reason : String)
  deriving DecidableEq, Repr

/-- The wording, from the outermost message to its reason. -/
def TrailFault.messages : TrailFault → List String
  | missing path fault => ["No audit trail at " ++ path, fault.message]
  | malformed line reason => ["Malformed audit record on line " ++ toString line, reason]

namespace Trail

/-- Reads the records of lines, the first of which has the given number. -/
def readFrom (number : Nat) : List String → Except TrailFault (List AuditRecord)
  | [] => .ok []
  | line :: rest =>
    match AuditRecord.ofLine line with
    | .error fault => .error (.malformed number (fault.messageIn (Text.symbolsOf line)))
    | .ok record => (readFrom (number + 1) rest).map (record :: ·)

/-- The records of a trail. -/
def parse (content : String) : Except TrailFault (List AuditRecord) :=
  readFrom 1 ((Text.lines content).filter fun line => !Text.allBlank line)

/-- Where the trail of a session is. -/
def pathOf (folder : String) (session : Uuid) : String :=
  Path.join folder (session.format ++ "." ++ extension)

/-- Adds a record to the trail of its session. -/
def record (folder : String) (r : AuditRecord) (fs : Files) : Except FileFault Files :=
  fs.append (pathOf folder r.sessionId) (Text.Utf8.encode r.toLine)

/-- The records of a session, in the order in which they were written. -/
def load (fs : Files) (folder : String) (session : Uuid) :
    Except TrailFault (List AuditRecord) :=
  let path := pathOf folder session
  match fs.readText path with
  | .error fault => .error (.missing path fault)
  | .ok content => parse content

/-- The session of a trail by the name of its file, in any written form of the identifier. -/
def sessionOf? (name : String) : Option Uuid :=
  match Path.splitExtension name with
  | (stem, some e) => if e = extension then Uuid.parse? stem else none
  | (_, none) => none

/-- The sessions that have a trail, the one that was written last first. -/
def sessions (fs : Files) (folder : String) : Except FileFault (List Uuid) :=
  if fs.contains folder then do
    let trails := (← fs.list folder).filterMap fun (name, time) =>
      (sessionOf? name).map (time, ·)
    return (trails.mergeSort fun a b => b.1 ≤ a.1).map (·.2)
  else .ok []

end Trail

end ContractConversion
