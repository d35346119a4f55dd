import ContractConversion.Json.Record
import ContractConversion.Oracle.Extraction
import ContractConversion.Wire.Models

/-!
# The envelope of an answer

The completion program wraps a model's answer in an envelope, an object with the text of the answer,
whether it is an error, and what it cost.
-/

namespace ContractConversion

/-- The envelope around an answer. -/
structure Envelope where
  result : Option String := none
  isError : Bool := false
  usage : Usage := {}
  deriving DecidableEq, Repr

namespace Wire

def envelope : Json.Codec Envelope :=
  .record [Option String, Bool, Usage] "Envelope"
    (.optional "result" .string, .defaulted "is_error" .bool false, .defaulted "usage" usage {}, ())
    (fun e => (e.result, e.isError, e.usage, ()))
    (fun (result, isError, usage, ()) => ⟨result, isError, usage⟩)

end Wire

namespace Envelope

/-- The completion that the output of the program stands for. -/
def parse (stdout : String) : Except OracleFault Completion := do
  let input := Text.symbolsOf (Text.trim stdout)
  let e ← ((Json.Document.parse input).readWith (Wire.envelope.decode .text)).mapError
    fun fault => .malformed ("unreadable CLI envelope: " ++ fault.messageIn input)
  match e.result with
  | none => throw (.malformed "CLI envelope has no result")
  | some text =>
    if e.isError then throw (.unavailable text)
    else return ⟨← Extraction.extract text, e.usage⟩

end Envelope

end ContractConversion
