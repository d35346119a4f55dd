import ContractConversion.Text.Digits
import ContractConversion.Text.Utf8

/-!
# Percent encoding

A character that may not stand in a part of an address is written as its bytes in hexadecimal, each
behind a percent sign. Every part has its own set of such characters; what is encoded already stays
as it is.
-/

namespace ContractConversion.Url

/-- The characters that are encoded everywhere. -/
def isControl (c : Char) : Bool :=
  c.toNat < 0x20 || 0x7E < c.toNat

/-- The characters that are encoded in a fragment. -/
def inFragment (c : Char) : Bool :=
  isControl c || c = ' ' || c = '"' || c = '<' || c = '>' || c.toNat = 0x60

/-- The characters that are encoded in a path. -/
def inPath (c : Char) : Bool :=
  inFragment c || c = '#' || c = '?' || c.toNat = 0x7B || c.toNat = 0x7D

/-- The characters that are encoded in a query; the last one only with some schemes. -/
def inQuery (special : Bool) (c : Char) : Bool :=
  isControl c || c = ' ' || c = '"' || c = '#' || c = '<' || c = '>' || (special && c = '\'')

/-- A byte behind a percent sign. -/
def percentByte (b : UInt8) : List Char :=
  ['%', Text.upperHexDigit (b.toNat / 16), Text.upperHexDigit (b.toNat % 16)]

/-- Encodes the characters of a set. -/
def percentEncode (set : Char → Bool) (cs : List Char) : List Char :=
  cs.flatMap fun c => if set c then (String.utf8EncodeChar c).flatMap percentByte else [c]

/-- The bytes of a text in which some are encoded. -/
def percentDecode : List Char → List UInt8
  | '%' :: a :: b :: rest =>
    match Text.hexValue? a, Text.hexValue? b with
    | some x, some y => (x.val * 16 + y.val).toUInt8 :: percentDecode rest
    | _, _ => 0x25 :: percentDecode (a :: b :: rest)
  | c :: rest => String.utf8EncodeChar c ++ percentDecode rest
  | [] => []

end ContractConversion.Url
