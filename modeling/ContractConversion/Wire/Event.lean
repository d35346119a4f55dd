import ContractConversion.Text.Blank
import ContractConversion.Wire.Models

/-!
# The written form of events

An event is an object with its name under `type` and its content under `data`. On a stream each
event is one line.
-/

namespace ContractConversion

open Json

namespace Wire

/-- The content of an event that consists of named values; `name` is its name in messages. -/
def eventContent (name : String) (types : List Type) (fields : Fields types)
    (make : Tuple types → Event) : Tagged.Payload Event :=
  .content fun origin t =>
    (fields.decodeStrict ("struct variant ConversionEvent::" ++ name) origin t).map make

/-- The one value of the first phase's start. -/
def phase1StartFields : Fields [Uuid] :=
  (.required "session_id" uuid, ())

def phase1CompleteFields : Fields [Value, Usage] :=
  (.required "analysis" .any, .defaulted "usage" usage {}, ())

def phase2CompleteFields : Fields [List PlannedContract, List Transaction, Usage] :=
  (.required "contracts" (.list plannedContract), .defaulted "transactions" (.list transaction) [],
    .defaulted "usage" usage {}, ())

def phase3StartFields : Fields [Nat] :=
  (.required "attempt" .u32, ())

def phase4StartFields : Fields [Nat, List String] :=
  (.required "attempt" .u32, .required "retrying" (.list .string), ())

def artifactReadyFields : Fields [Artifact] :=
  (.required "artifact" artifact, ())

def doneFields : Fields [ConversionResult] :=
  (.required "result" result, ())

def errorFields : Fields [String, Option Nat, Option String] :=
  (.required "message" .string, .optional "phase" .u8, .optional "detail" .string, ())

/-- How each event is read. -/
def eventKinds : List (String × Tagged.Payload Event) :=
  [("phase1_start", eventContent "Phase1Start" _ phase1StartFields
      fun (sessionId, ()) => .phase1Start sessionId),
    ("phase1_complete", eventContent "Phase1Complete" _ phase1CompleteFields
      fun (analysis, usage, ()) => .phase1Complete analysis usage),
    ("phase2_start", .unit "unit variant ConversionEvent::Phase2Start" .phase2Start),
    ("phase2_complete", eventContent "Phase2Complete" _ phase2CompleteFields
      fun (contracts, transactions, usage, ()) => .phase2Complete contracts transactions usage),
    ("phase3_start", eventContent "Phase3Start" _ phase3StartFields
      fun (attempt, ()) => .phase3Start attempt),
    ("phase4_start", eventContent "Phase4Start" _ phase4StartFields
      fun (attempt, retrying, ()) => .phase4Start attempt retrying),
    ("validation", .content fun origin t => (report.decode origin t).map .validation),
    ("artifact_ready", eventContent "ArtifactReady" _ artifactReadyFields
      fun (artifact, ()) => .artifactReady artifact),
    ("done", eventContent "Done" _ doneFields fun (result, ()) => .done result),
    ("error", eventContent "Error" _ errorFields
      fun (message, phase, detail, ()) => .error message phase detail)]

/-- The layout of events. -/
def eventLayout : Tagged.Layout Event :=
  ⟨"ConversionEvent", "type", "data", eventKinds⟩

/-- The content of an event; one of them has none. -/
def eventData : Event → Option Value
  | .phase1Start sessionId => some (.obj (phase1StartFields.encode (sessionId, ())))
  | .phase1Complete analysis usage =>
    some (.obj (phase1CompleteFields.encode (analysis, usage, ())))
  | .phase2Start => none
  | .phase2Complete contracts transactions usage =>
    some (.obj (phase2CompleteFields.encode (contracts, transactions, usage, ())))
  | .phase3Start attempt => some (.obj (phase3StartFields.encode (attempt, ())))
  | .phase4Start attempt retrying =>
    some (.obj (phase4StartFields.encode (attempt, retrying, ())))
  | .validation r => some (report.encode r)
  | .artifactReady a => some (.obj (artifactReadyFields.encode (a, ())))
  | .done r => some (.obj (doneFields.encode (r, ())))
  | .error message phase detail =>
    some (.obj (errorFields.encode (message, phase, detail, ())))

/-- An event as an object. -/
def encodeEvent (e : Event) : Value :=
  match eventData e with
  | some data => .obj [("type", .str e.name), ("data", data)]
  | none => .obj [("type", .str e.name)]

/-- The codec of events. -/
def event : Codec Event where
  encode := encodeEvent
  decode := eventLayout.decode

end Wire

namespace Event

/-- The event as one line, with its line break. -/
def toLine (e : Event) : String :=
  (Wire.encodeEvent e).compact ++ "\n"

/-- Reads an event from a line; blanks around it do not count. -/
def ofLine (line : String) : Except Fault Event :=
  (Document.parse (Text.symbolsOf (Text.trim line))).readWith (Wire.event.decode .text)

/-- Reads an event from a value. -/
def ofValue (v : Value) : Except Fault Event :=
  Wire.event.decode .value (.ofValue v)

end Event

end ContractConversion
