import ContractConversion.Text.Blank
import ContractConversion.Text.Utf8

/-!
# Lines of a byte stream

Bytes arrive in chunks that are cut anywhere. Bytes are kept until their line is complete; a line is
decoded as a whole, without the carriage returns at its end, and a blank one is left out. What
remains at the end of the stream is its last line, trimmed.
-/

namespace ContractConversion

/-- The bytes of a line that is not complete. -/
structure LineDecoder where
  buffer : List UInt8 := []
  deriving DecidableEq, Repr

namespace LineDecoder

/-- The byte that ends a line. -/
def newline : UInt8 := 10

/-- The text of a line, without the carriage returns at its end. -/
def lineText (bytes : List UInt8) : List Char :=
  (((Text.Utf8.symbols bytes).map Text.Symbol.replaced).reverse.dropWhile (· = '\r')).reverse

/-- The line, unless it is blank. -/
def line? (bytes : List UInt8) : Option String :=
  let cs := lineText bytes
  if cs.all Text.isBlank then none else some (String.ofList cs)

/-- The pieces of a byte string between line ends; there is at least one. -/
def segments (bytes : List UInt8) : List (List UInt8) :=
  bytes.splitOn newline

/-- Takes in a chunk: the lines that it completes. -/
def push (d : LineDecoder) (chunk : List UInt8) : LineDecoder × List String :=
  let pieces := segments (d.buffer ++ chunk)
  (⟨pieces.getLast?.getD []⟩, pieces.dropLast.filterMap line?)

/-- The last line, if it is not blank. The decoder is empty afterwards. -/
def finish (d : LineDecoder) : LineDecoder × Option String :=
  let text := Text.trim (Text.Utf8.lossy d.buffer)
  ({}, if text.isEmpty then none else some text)

end LineDecoder

end ContractConversion
