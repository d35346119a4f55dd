import ContractConversion.Text.Combining
import ContractConversion.Text.Unprintable

/-!
# Quoted text

A text is quoted between double quotes. A quote and a backslash are written after a backslash, a
line feed, a tab, a carriage return and a null by their letter, and any other character that would
not show on its own by its number in braces.
-/

namespace ContractConversion.Text.Quoted

/-- A number in lower-case hexadecimal digits, with no leading zero. -/
def hexDigits (n : Nat) : List Char :=
  Nat.toDigits 16 n

/-- The written form of one character. -/
def escape (c : Char) : List Char :=
  match c with
  | '"' => ['\\', '"']
  | '\\' => ['\\', '\\']
  | '\n' => ['\\', 'n']
  | '\t' => ['\\', 't']
  | '\r' => ['\\', 'r']
  | '\x00' => ['\\', '0']
  | c =>
    if isUnprintable c || isCombining c then
      ['\\', 'u', '\x7b'] ++ hexDigits c.toNat ++ ['\x7d']
    else [c]

/-- The text between quotes. -/
def encode (s : String) : String :=
  String.ofList ('"' :: s.toList.flatMap escape ++ ['"'])

/-- Quoted texts in brackets, separated by commas. -/
def encodeList (texts : List String) : String :=
  "[" ++ ", ".intercalate (texts.map encode) ++ "]"

end ContractConversion.Text.Quoted
