import ContractConversion.Audit.Trail

/-!
# The audit logger

All sessions hand their records to one logger. A record waits in a queue until the writer of the
logger comes to it and writes it behind the trail of its session. A record that cannot be written is
lost, and whoever handed it in is not told.
-/

namespace ContractConversion

/-- A logger: its folder, the records that wait, the first of them in front, and the files. -/
structure Logger where
  folder : String
  queue : List AuditRecord := []
  files : Files
  deriving DecidableEq, Repr

namespace Logger

/-- Starts a logger; its folder is made unless it is there. -/
def start (folder : String) (fs : Files) : Except FileFault Logger :=
  (fs.makeFolders folder).map fun files => { folder, files }

/-- What happens to a logger. -/
inductive Act where
  /-- A session hands in a record. -/
  | record (r : AuditRecord)
  /-- The writer comes to the next record. -/
  | write
  deriving DecidableEq, Repr

/-- The logger after something happened. -/
def act (l : Logger) : Act → Logger
  | .record r => { l with queue := l.queue ++ [r] }
  | .write =>
    match l.queue with
    | [] => l
    | r :: rest =>
      match Trail.record l.folder r l.files with
      | .ok files => { l with queue := rest, files }
      | .error _ => { l with queue := rest }

/-- The logger after all that happened. -/
def after (l : Logger) (acts : List Act) : Logger :=
  acts.foldl act l

/-- The records that were handed in. -/
def recorded (acts : List Act) : List AuditRecord :=
  acts.filterMap fun
    | .record r => some r
    | .write => none

end Logger

end ContractConversion
