import ContractConversion.Admission
import ContractConversion.Json.Printer
import ContractConversion.Json.Record
import ContractConversion.Session.Settings

/-!
# Requests for conversions

A server has settings and slots, and the limits of the library that it listens with. A request for a
conversion is a JSON record with the source. It is refused if it cannot be read, if there is an
objection to its source, or if no slot is free; the objection to the source comes before the lack of
a slot.
-/

namespace ContractConversion

/-- A server between two requests. -/
structure Server where
  settings : Settings
  admission : Admission
  /-- The bytes of the largest frame that is taken from a socket. -/
  frameLimit : Nat := 16777216
  deriving Repr

/-- A request to convert a source. -/
structure ConversionRequest where
  source : String
  deriving DecidableEq, Repr

/-- How busy a server is. -/
structure Health where
  status : String := "ok"
  active : Nat
  limit : Nat
  deriving DecidableEq, Repr

namespace Wire

open Json

def conversionRequest : Codec ConversionRequest :=
  .record [String] "ConvertRequest" (.required "source" .string, ())
    (fun r => (r.source, ()))
    (fun (source, ()) => ⟨source⟩)

def health : Codec Health :=
  .record [String, Nat, Nat] "HealthResponse"
    (.required "status" .string, .required "active_sessions" .size, .required "max_sessions" .size,
      ())
    (fun h => (h.status, h.active, h.limit, ()))
    (fun (status, active, limit, ()) => ⟨status, active, limit⟩)

end Wire

namespace ConversionRequest

open Json (Document Fault Items Members Tree)

/-- Reads a request. -/
def parse (input : List Text.Symbol) : Except Fault ConversionRequest :=
  (Document.parse input).readWith (Wire.conversionRequest.decode .text)

/-- The body in which a client sends a request. -/
def body (r : ConversionRequest) : List UInt8 :=
  Text.Utf8.encode (Wire.conversionRequest.encode r).compact

/-- Whether reading or passing over the value of a member meets the given fault. A value that does
not start, because the colon before it is missing, meets none. -/
def meets (fault : Fault) (key : String) : Tree → Bool
  | .none ⟨.ill .expectedColon, _⟩ _ | .none ⟨.ill .endInObject, _⟩ _ => false
  | value =>
    let walked :=
      if key = "source" then (Json.Codec.string.decode .text value).map fun _ => () else value.skip
    match walked with
    | .error met => met = fault
    | .ok () => false

/-- The first member whose value meets the given fault. -/
def memberOf? (fault : Fault) : Members → Option String
  | .nil _ => none
  | .cons (.error _) _ _ _ _ => none
  | .cons (.ok key) _ _ value tail =>
    if meets fault key value then some key else memberOf? fault tail

/-- The part of a request in whose value a fault stands: the key of a member, or the index of an
item. -/
def placeOf? (fault : Fault) (input : List Text.Symbol) : Option String :=
  match (Document.parse input).root with
  | .map _ _ members => memberOf? fault members
  | .seq _ _ (.cons head _) => if meets fault "source" head then some "[0]" else none
  | _ => none

end ConversionRequest

/-- The wording of a server that has no slot free. -/
def Server.busyText : String :=
  "Too many conversions in progress; try again shortly"

end ContractConversion
