import ContractConversion.Stream.LineDecoder
import ContractConversion.Wire.Event

/-!
# Reading a stream of events

A stream carries one event a line. Lines that are no events are passed over, and reading stops at
the first terminal event. Without one the stream was cut off, or its transport failed.
-/

namespace ContractConversion

/-- What a transport hands over. -/
inductive Chunk where
  | bytes (bytes : List UInt8)
  | failed (message : String)
  deriving DecidableEq, Repr

/-- How a stream ends. -/
inductive StreamEnd where
  | terminal
  | truncated
  | failed (message : String)
  deriving DecidableEq, Repr

namespace StreamReader

/-- The events of lines. -/
def events (lines : List String) : List Event :=
  lines.filterMap fun line => (Event.ofLine line).toOption

/-- The events up to the first terminal one, and whether there is one. -/
def upToTerminal : List Event → List Event × Bool
  | [] => ([], false)
  | e :: rest =>
    if e.isTerminal then ([e], true)
    else
      let (more, terminal) := upToTerminal rest
      (e :: more, terminal)

/-- Reads on with a decoder. -/
def readFrom (d : LineDecoder) : List Chunk → List Event × StreamEnd
  | [] =>
    let (seen, terminal) := upToTerminal (events d.finish.2.toList)
    (seen, if terminal then .terminal else .truncated)
  | .failed message :: _ => ([], .failed message)
  | .bytes bytes :: rest =>
    let (d, lines) := d.push bytes
    let (seen, terminal) := upToTerminal (events lines)
    if terminal then (seen, .terminal)
    else
      let (more, last) := readFrom d rest
      (seen ++ more, last)

/-- The events of a stream and how it ends. -/
def read (chunks : List Chunk) : List Event × StreamEnd :=
  readFrom {} chunks

end StreamReader

end ContractConversion
