/-!
# UTF-8

A byte string is read as a list of symbols: the characters it encodes, and between them the byte
runs that encode none. A run is as long as it could still have become a character, so that a cut
character counts as one run. Reading goes byte by byte; the state is the character under
construction.
-/

namespace ContractConversion.Text

/-- One symbol of a byte string: a character, or a run of bytes that encodes none. -/
inductive Symbol where
  | char (c : Char)
  | stray (bytes : List UInt8)
  deriving DecidableEq, Repr

namespace Symbol

/-- The number of bytes the symbol stands for. -/
def width : Symbol → Nat
  | char c => c.utf8Size
  | stray bytes => bytes.length

/-- The character read for a symbol; the replacement character stands for a stray run. -/
def replaced : Symbol → Char
  | char c => c
  | stray _ => '\uFFFD'

end Symbol

namespace Utf8

/-- Between two characters, or inside one: its bytes so far (last first), its bits so far, the
number of bytes still missing, and the range of the next one. -/
inductive State where
  | idle
  | inside (bytes : List UInt8) (bits missing low high : Nat)
  deriving DecidableEq, Repr

/-- Reads a first byte. A character of two or more bytes starts with one of 0xC2 to 0xF4; the range
of the second byte excludes overlong forms, surrogates and numbers above U+10FFFF. -/
def start (b : UInt8) : List Symbol × State :=
  let n := b.toNat
  if n < 0x80 then ([.char (Char.ofNat n)], .idle)
  else if n < 0xC2 then ([.stray [b]], .idle)
  else if n < 0xE0 then ([], .inside [b] (n - 0xC0) 1 0x80 0xBF)
  else if n = 0xE0 then ([], .inside [b] 0 2 0xA0 0xBF)
  else if n = 0xED then ([], .inside [b] 0xD 2 0x80 0x9F)
  else if n < 0xF0 then ([], .inside [b] (n - 0xE0) 2 0x80 0xBF)
  else if n = 0xF0 then ([], .inside [b] 0 3 0x90 0xBF)
  else if n < 0xF4 then ([], .inside [b] (n - 0xF0) 3 0x80 0xBF)
  else if n = 0xF4 then ([], .inside [b] 4 3 0x80 0x8F)
  else ([.stray [b]], .idle)

/-- Reads one byte: the symbols it completes, last first, and the state after it. A byte that cannot
go on with the character under construction ends it as a stray run and is read as a first byte. -/
def step (b : UInt8) : State → List Symbol × State
  | .idle => start b
  | .inside bytes bits missing low high =>
    if low ≤ b.toNat ∧ b.toNat ≤ high then
      let bits := bits * 64 + (b.toNat - 0x80)
      if missing ≤ 1 then ([.char (Char.ofNat bits)], .idle)
      else ([], .inside (b :: bytes) bits (missing - 1) 0x80 0xBF)
    else
      let (out, next) := start b
      (out ++ [.stray bytes.reverse], next)

/-- The symbol of a character that the input cuts off. -/
def State.finish : State → List Symbol
  | .idle => []
  | .inside bytes _ _ _ _ => [.stray bytes.reverse]

/-- Reads on from a list of symbols, last first, and a state. -/
def run (bytes : List UInt8) (before : List Symbol × State) : List Symbol × State :=
  bytes.foldl (fun (out, state) b => let (more, next) := step b state; (more ++ out, next)) before

/-- The symbols of a byte string. -/
def symbols (bytes : List UInt8) : List Symbol :=
  let (out, state) := run bytes ([], .idle)
  (state.finish ++ out).reverse

/-- The text of a byte string, with the replacement character for each stray run. -/
def lossy (bytes : List UInt8) : String :=
  String.ofList ((symbols bytes).map Symbol.replaced)

/-- The characters of a list of symbols, if it has no stray run. -/
def chars? (symbols : List Symbol) : Option (List Char) :=
  symbols.mapM fun
    | .char c => some c
    | .stray _ => none

/-- The text of a byte string that encodes characters only. -/
def strict? (bytes : List UInt8) : Option String :=
  (chars? (symbols bytes)).map String.ofList

/-- The bytes of a text. -/
def encode (s : String) : List UInt8 :=
  s.toList.flatMap String.utf8EncodeChar

end Utf8

/-- The symbols of a text: its characters. -/
def symbolsOf (s : String) : List Symbol :=
  s.toList.map .char

end ContractConversion.Text
