import ContractConversion.Decimal.Shortest
import ContractConversion.Json.Value

/-!
# Written JSON

The compact form has no blanks. The pretty form puts each item and member on a line of its own,
indented by two spaces a level. Only a quote, a backslash and the characters below U+0020 are
escaped. A double is written by its shortest decimal: positional from `1e-5` up to below `1e16`, and
with at least one place after the point.
-/

namespace ContractConversion.Json

/-- The written form of one character of a string. -/
def escape (c : Char) : List Char :=
  match c with
  | '"' => ['\\', '"']
  | '\\' => ['\\', '\\']
  | '\x08' => ['\\', 'b']
  | '\t' => ['\\', 't']
  | '\n' => ['\\', 'n']
  | '\x0c' => ['\\', 'f']
  | '\r' => ['\\', 'r']
  | c =>
    if c.toNat < 0x20 then
      ['\\', 'u', '0', '0', Nat.digitChar (c.toNat / 16), Nat.digitChar (c.toNat % 16)]
    else [c]

/-- A string between quotes. -/
def quote (s : String) : List Char :=
  '"' :: s.toList.flatMap escape ++ ['"']

namespace Number

/-- The digits of a decimal with the point behind the first `places` of them; zeros fill up. -/
def positional (digits : List Char) (places : Int) : List Char :=
  if places ≤ 0 then
    ['0', '.'] ++ List.replicate (-places).toNat '0' ++ digits
  else
    let whole := places.toNat
    if digits.length ≤ whole then
      digits ++ List.replicate (whole - digits.length) '0' ++ ['.', '0']
    else digits.take whole ++ '.' :: digits.drop whole

/-- The digits of a decimal with the point behind the first one, and an exponent with its sign. -/
def exponential (digits : List Char) (exponent : Int) : List Char :=
  let mantissa := match digits with
    | [] => []
    | [d] => [d]
    | d :: rest => d :: '.' :: rest
  let sign := if exponent < 0 then '-' else '+'
  mantissa ++ 'e' :: sign :: Nat.toDigits 10 exponent.natAbs

/-- The text of a double. -/
def doubleText (bits : UInt64) : List Char :=
  let sign := if bits.toNat < Nat.pow 2 63 then [] else ['-']
  let magnitude := Decimal.Binary.ofBits bits
  if magnitude.m = 0 then sign ++ ['0', '.', '0']
  else
    let d := Decimal.shortest magnitude
    let digits := Nat.toDigits 10 d.digits
    let leading := d.exponent + digits.length - 1
    sign ++
      (if -5 ≤ leading ∧ leading < 16 then positional digits (leading + 1)
        else exponential digits leading)

/-- The text of an integer. -/
def intText : Int → List Char
  | .ofNat n => Nat.toDigits 10 n
  | .negSucc n => '-' :: Nat.toDigits 10 (n + 1)

/-- The text of a number. -/
def text : Number → List Char
  | .int n => intText n
  | .double bits => doubleText bits

end Number

namespace Value

mutual

/-- The characters of the compact form. -/
def compactChars : Value → List Char
  | .null => ['n', 'u', 'l', 'l']
  | .bool true => ['t', 'r', 'u', 'e']
  | .bool false => ['f', 'a', 'l', 's', 'e']
  | .num n => n.text
  | .str s => quote s
  | .arr items => '[' :: compactItems items ++ [']']
  | .obj members => '\x7b' :: compactMembers members ++ ['\x7d']

/-- Items separated by commas. -/
def compactItems : List Value → List Char
  | [] => []
  | [v] => compactChars v
  | v :: rest => compactChars v ++ ',' :: compactItems rest

/-- Members separated by commas. -/
def compactMembers : List (String × Value) → List Char
  | [] => []
  | [(k, v)] => quote k ++ ':' :: compactChars v
  | (k, v) :: rest => quote k ++ ':' :: compactChars v ++ ',' :: compactMembers rest

end

/-- The compact form. -/
def compact (v : Value) : String :=
  String.ofList v.compactChars

/-- A line break and the indentation of a level. -/
def newline (level : Nat) : List Char :=
  '\n' :: List.replicate (2 * level) ' '

mutual

/-- The characters of the pretty form at a level of indentation. -/
def prettyChars (level : Nat) : Value → List Char
  | .arr [] => ['[', ']']
  | .arr (v :: rest) =>
    '[' :: prettyItems (level + 1) (v :: rest) ++ newline level ++ [']']
  | .obj [] => ['\x7b', '\x7d']
  | .obj (m :: rest) =>
    '\x7b' :: prettyMembers (level + 1) (m :: rest) ++ newline level ++ ['\x7d']
  | v => compactChars v

/-- Items, each on a line of its own. -/
def prettyItems (level : Nat) : List Value → List Char
  | [] => []
  | [v] => newline level ++ prettyChars level v
  | v :: rest => newline level ++ prettyChars level v ++ ',' :: prettyItems level rest

/-- Members, each on a line of its own. -/
def prettyMembers (level : Nat) : List (String × Value) → List Char
  | [] => []
  | [(k, v)] => newline level ++ quote k ++ [':', ' '] ++ prettyChars level v
  | (k, v) :: rest =>
    newline level ++ quote k ++ [':', ' '] ++ prettyChars level v ++
      ',' :: prettyMembers level rest

end

/-- The pretty form. -/
def pretty (v : Value) : String :=
  String.ofList (v.prettyChars 0)

end Value

end ContractConversion.Json
