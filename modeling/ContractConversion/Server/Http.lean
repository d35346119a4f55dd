import ContractConversion.Server.MediaType
import ContractConversion.Server.Request
import ContractConversion.Session.Run
import ContractConversion.Text.Occurrence
import ContractConversion.Wire.Event

/-!
# Conversions over HTTP

There are three routes. One tells how busy the server is. One takes a request for a conversion in
the body of a `POST`; the answer is the stream of the session's events, one JSON text a line. The
third opens a socket, which needs a connection that can be upgraded.
-/

namespace ContractConversion.Http

/-- A request; the names of its headers are read without regard to case. -/
structure Request where
  method : String
  /-- The path, and a query behind a question mark. -/
  target : String
  headers : List (String × String) := []
  body : List UInt8 := []
  deriving Repr

/-- A response. -/
structure Response where
  status : Nat
  headers : List (String × String) := []
  body : String := ""
  deriving DecidableEq, Repr

/-- The value of the first header of a name, which is given in small letters. -/
def Request.header? (r : Request) (name : String) : Option String :=
  (r.headers.find? fun (key, _) => key.toLower = name).map (·.2)

/-- The request with which a client asks for the conversion of a source. -/
def Request.ofSource (source : String) : Request where
  method := "POST"
  target := "/api/convert"
  headers := [("content-type", "application/json")]
  body := ConversionRequest.body ⟨source⟩

/-- The value of a header. -/
def Response.header? (r : Response) (name : String) : Option String :=
  r.headers.lookup name

/-! ## Routes -/

/-- What the paths of the server stand for. -/
inductive Route where
  | health
  | convert
  | socket
  deriving DecidableEq, Repr

namespace Route

/-- The route of a target. -/
def ofTarget? (target : String) : Option Route :=
  match String.ofList (target.toList.takeWhile fun c => c ≠ '?' && c ≠ '#') with
  | "/health" => some health
  | "/api/convert" => some convert
  | "/api/convert/ws" => some socket
  | _ => none

/-- The methods that a route serves. -/
def methods : Route → List String
  | health | socket => ["GET", "HEAD"]
  | convert => ["POST"]

end Route

/-! ## Requests for conversions -/

/-- Why a request for a conversion is refused. -/
inductive Refusal where
  | notJson
  | bodyTooLarge
  /-- The body cannot be read. -/
  | undecodable (message : String)
  | input (fault : InputFault)
  | busy
  deriving DecidableEq, Repr

namespace Refusal

/-- The status of the response. -/
def status : Refusal → Nat
  | notJson | undecodable _ => 400
  | bodyTooLarge | input (.tooLarge _ _) => 413
  | input .empty | input (.tooShort _ _) => 400
  | busy => 503

/-- The wording. -/
def message : Refusal → String
  | notJson => "Expected request with `Content-Type: application/json`"
  | bodyTooLarge => "Request body is too large"
  | undecodable message => message
  | input fault => fault.message
  | busy => Server.busyText

/-- Whether the same request may be accepted later. -/
def retryable : Refusal → Bool
  | busy => true
  | _ => false

/-- The seconds after which a client that may try again should do so. -/
def retryAfter : String := "5"

/-- The response. -/
def response (r : Refusal) : Response where
  status := r.status
  headers := ("content-type", "application/json") ::
    if r.retryable then [("retry-after", retryAfter)] else []
  body := (Json.Value.obj [("error", .str r.message), ("retryable", .bool r.retryable)]).compact

end Refusal

/-- Why a body cannot be read, and where. -/
def undecodable (fault : Json.Fault) (input : List Text.Symbol) : Refusal :=
  let opening :=
    if fault.isData then "Failed to deserialize the JSON body into the target type: "
    else "Failed to parse the request body as JSON: "
  let place := match ConversionRequest.placeOf? fault input with
    | some place => place ++ ": "
    | none => ""
  .undecodable (opening ++ place ++ fault.messageIn input)

/-- The source that a request wants converted, if the server can start with it now. -/
def convert (server : Server) (r : Request) : Except Refusal String := do
  unless (r.header? "content-type").any MediaType.isJson do throw .notJson
  if server.settings.bodyLimit < r.body.length then throw .bodyTooLarge
  let input := Text.Utf8.symbols r.body
  let request ← (ConversionRequest.parse input).mapError (undecodable · input)
  (server.settings.checkInput request.source).mapError .input
  if server.admission.take.isNone then throw .busy
  return request.source

/-- The response that carries the events of a session. -/
def stream (id : Uuid) (events : List Event) : Response where
  status := 200
  headers := [("content-type", "application/x-ndjson"), ("cache-control", "no-cache"),
    ("x-kiln-session-id", id.format)]
  body := String.join (events.map Event.toLine)

/-! ## The other routes -/

/-- The response that tells how busy the server is. -/
def health (server : Server) : Response where
  status := 200
  headers := [("content-type", "application/json")]
  body := (Wire.health.encode
    { active := server.admission.active, limit := server.admission.limit }).compact

/-- A response in plain text. -/
def plain (status : Nat) (body : String) : Response where
  status
  headers := [("content-type", "text/plain; charset=utf-8")]
  body

/-- Whether a request has a header of the given value, without regard to case. -/
def Request.declares (r : Request) (name value : String) : Bool :=
  (r.header? name).any fun v => v.toLower = value

/-- The response to a request for a socket on a connection that cannot be upgraded. What the request
itself lacks comes first. -/
def noSocket (r : Request) : Response :=
  let connection := ((r.header? "connection").getD "").toLower
  if r.method ≠ "GET" then plain 405 "Request method must be `GET`"
  else if !Text.occursIn "upgrade" connection then
    plain 400 "Connection header did not include 'upgrade'"
  else if !r.declares "upgrade" "websocket" then
    plain 400 "`Upgrade` header did not include 'websocket'"
  else if (r.header? "sec-websocket-key").isNone then
    plain 400 "`Sec-WebSocket-Key` header missing"
  else if !r.declares "sec-websocket-version" "13" then
    plain 400 "`Sec-WebSocket-Version` header did not include '13'"
  else plain 426 "WebSocket request couldn't be upgraded since no upgrade state was present"

/-! ## Answers -/

/-- What the server does with a request. -/
inductive Answer where
  | respond (response : Response)
  /-- It starts a session and responds with its events. -/
  | convert (source : String)
  deriving DecidableEq, Repr

/-- A response to `HEAD` has no body. -/
def Request.fit (r : Request) (response : Response) : Response :=
  if r.method = "HEAD" then { response with body := "" } else response

/-- What the server does with a request. -/
def answer (server : Server) (r : Request) : Answer :=
  match Route.ofTarget? r.target with
  | none => .respond { status := 404 }
  | some route =>
    if r.method ∉ route.methods then
      .respond { status := 405, headers := [("allow", ",".intercalate route.methods)] }
    else
      match route with
      | .health => .respond (r.fit (health server))
      | .socket => .respond (r.fit (noSocket r))
      | .convert =>
        match convert server r with
        | .ok source => .convert source
        | .error refusal => .respond refusal.response

/-- An exchange with a client that reads to the end: the response, and the run of the session if one
was started. -/
def exchange (server : Server) (id : Uuid) (outside : Surroundings) (r : Request) :
    Response × Option Run :=
  match answer server r with
  | .respond response => (response, none)
  | .convert source =>
    let run := Run.ofSource server.settings id source outside
    (stream id run.received, some run)

end ContractConversion.Http
