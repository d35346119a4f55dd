import ContractConversion.Client.Store
import ContractConversion.Stream.Reader
import ContractConversion.Url.Address

/-!
# Clients

A client follows one conversion at a time. Starting a new one gives up the old: the store starts
afresh under the next epoch, and what still comes from an older stream is not taken in. A server
that refuses says why in its response. A stream that ends without a terminal event ends the
conversion with an error of its own.
-/

namespace ContractConversion

/-- A client of a server. -/
structure Client where
  /-- The address of the server, without slashes at its end. -/
  base : String
  store : Store := .forEpoch 0
  /-- The epoch of the stream in flight. -/
  inFlight : Option Nat := none
  deriving DecidableEq, Repr

/-- What becomes of a request to a server. -/
inductive Fetch where
  /-- No server answers. -/
  | unreachable
  /-- The status, which goes by a name, is no success. The body may fail to come. -/
  | refused (status : Nat) (name : String) (body : Option (List UInt8))
  | answered (chunks : List Chunk)
  deriving DecidableEq, Repr

/-- Why a request is not sent or not answered. -/
inductive RequestFault where
  | noAddress
  | badAddress (text : String)
  | unreachable (text : String)
  deriving DecidableEq, Repr

/-- The wording of the fault. -/
def RequestFault.message : RequestFault → String
  | noAddress => "builder error"
  | badAddress text => "builder error for url (" ++ text ++ ")"
  | unreachable text => "error sending request for url (" ++ text ++ ")"

/-- Why a server refuses: what its body says of the error, or else the status. -/
def refusalMessage (status : Nat) (name : String) (body : Option (List UInt8)) : String :=
  let value? := body.bind fun bytes => (Json.Value.parse (Text.Utf8.symbols bytes)).toOption
  let error? := (value?.bind (·.get? "error")).bind Json.Value.str?
  error?.getD ("Server returned " ++ toString status ++ " " ++ name)

/-- The error that ends a conversion whose stream does not. -/
def StreamEnd.error? : StreamEnd → Option Event
  | terminal => none
  | truncated => some (.error "Stream ended before the conversion finished" none (some "transport"))
  | failed message => some (.error message none (some "transport"))

namespace Client

/-- A client of the server at an address. -/
def new (address : String) : Client where
  base := String.ofList (address.toList.reverse.dropWhile (· = '/')).reverse

/-- Gives up the stream in flight; the store keeps what it has. -/
def cancel (c : Client) : Client :=
  { c with inFlight := none }

/-- Starts a conversion in place of the one before. -/
def start (c : Client) : Client :=
  let epoch := c.store.epoch + 1
  { c with store := .forEpoch epoch, inFlight := some epoch }

/-- Takes in an event of the stream of an epoch, and says whether that changed the store. -/
def deliver (c : Client) (epoch : Nat) (event : Event) : Client × Bool :=
  if c.store.epoch = epoch ∧ c.store.isFinished = false then
    ({ c with store := c.store.apply event }, true)
  else (c, false)

/-- Takes in the events of the stream of an epoch. -/
def deliverAll (c : Client) (epoch : Nat) (events : List Event) : Client :=
  events.foldl (fun c event => (c.deliver epoch event).1) c

/-- Takes in the events of an epoch and how they end. -/
def conclude (c : Client) (epoch : Nat) (told : List Event × StreamEnd) : Client :=
  c.deliverAll epoch (told.1 ++ told.2.error?.toList)

/-- Takes in a whole stream and its end. -/
def receive (c : Client) (epoch : Nat) (chunks : List Chunk) : Client :=
  c.conclude epoch (StreamReader.read chunks)

/-- Where conversions are requested. -/
def target (c : Client) : String :=
  c.base ++ "/api/convert"

/-- The address of a request, if it can be sent. -/
def address (c : Client) : Except RequestFault Url.Address :=
  match Url.parse? c.target with
  | none => .error .noAddress
  | some address =>
    if address.isReachable then .ok address else .error (.badAddress address.text)

/-- What the request of a conversion brings: the events of a stream and how it ends. A server that
refuses is heard as an error. -/
def request (c : Client) (fetch : Url.Address → Fetch) : List Event × StreamEnd :=
  let failure (fault : RequestFault) : List Event × StreamEnd :=
    ([], .failed ("Failed to reach kiln server: " ++ fault.message))
  match c.address with
  | .error fault => failure fault
  | .ok address =>
    match fetch address with
    | .unreachable => failure (.unreachable address.text)
    | .refused status name body =>
      ([.error (refusalMessage status name body) none (some (toString status))], .terminal)
    | .answered chunks => StreamReader.read chunks

/-- Follows the stream in flight to its end. -/
def wait (c : Client) (fetch : Url.Address → Fetch) : Client :=
  match c.inFlight with
  | none => c
  | some epoch => c.conclude epoch (c.request fetch)

end Client

end ContractConversion
