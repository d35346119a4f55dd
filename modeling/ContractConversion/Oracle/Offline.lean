import ContractConversion.Oracle.Completion
import ContractConversion.Oracle.Fault
import ContractConversion.Text.Occurrence

/-!
# Oracles without an outside program

A server that runs offline plans a single contract and echoes what it is asked as its code. Its
validator accepts everything; one for rehearsals rejects code that contains a marker.
-/

namespace ContractConversion.Offline

open Json (Value)

/-- The data of the answer to a request. -/
def answerData (request : CompletionRequest) : Value :=
  match request.stage with
  | .analysis => .ofMembers
      [("summary", .str "offline analysis"), ("source_chars", .nat request.userMessage.length)]
  | .plan => .ofMembers
      [("contracts", .arr [.ofMembers
          [("name", .str "Main"),
            ("description", .str "Offline echo of the submitted source"),
            ("responsibilities", .str "none")]]),
        ("transactions", .arr [])]
  | .generate | .repair => .ofMembers
      [("code", .str ("// offline echo\n" ++ request.userMessage))]

/-- The answer to a request. It costs nothing. -/
def complete (request : CompletionRequest) : Completion :=
  ⟨answerData request, {}⟩

/-- The number of bytes of a text. -/
def byteSize (s : String) : Nat :=
  s.utf8ByteSize

/-- Finds all code valid that does not contain the marker, if there is one. -/
def validate (marker : Option String) (code : String) : Validation :=
  match marker with
  | none => .valid (byteSize code) none
  | some m =>
    if Text.occursIn m code then .invalid ("found " ++ m)
    else .valid (byteSize code) none

end ContractConversion.Offline
