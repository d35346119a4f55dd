import ContractConversion.Text.Digits
import ContractConversion.Toml.Document

/-!
# Written TOML

A string is written in the plainest notation that needs no escapes: in double quotes, else in single
quotes, else in three double quotes, else in three single quotes. What needs escapes is written in
double quotes, or in three of them if it has line breaks. An array of two or more items has each
item on a line of its own.
-/

namespace ContractConversion.Toml

/-- What a string holds that decides its notation. -/
structure Traits where
  /-- A backslash. -/
  backslash : Bool
  /-- A line feed. -/
  newline : Bool
  /-- A control character other than a tab and a line feed. -/
  control : Bool
  /-- The longest runs of quotes. -/
  singleQuotes : Nat
  doubleQuotes : Nat
  deriving DecidableEq, Repr

/-- The longest run of a character; `current` is the length of the run that ends here. -/
def longestRun (c : Char) (current longest : Nat) : List Char → Nat
  | [] => max current longest
  | d :: rest =>
    if d = c then longestRun c (current + 1) longest rest
    else longestRun c 0 (max current longest) rest

/-- A control character that has to be escaped. -/
def isControl (c : Char) : Bool :=
  (c.toNat < 0x20 && c ≠ '\t' && c ≠ '\n') || c.toNat = 0x7F

/-- The traits of a string. -/
def Traits.of (cs : List Char) : Traits where
  backslash := cs.any (· = '\\')
  newline := cs.any (· = '\n')
  control := cs.any isControl
  singleQuotes := longestRun '\'' 0 0 cs
  doubleQuotes := longestRun '"' 0 0 cs

/-- The notations of a string. -/
inductive Notation where
  | basic
  | literal
  | longBasic
  | longLiteral
  deriving DecidableEq, Repr

/-- The notation of a string. -/
def Traits.pick (t : Traits) : Notation :=
  if !t.control && !t.backslash && t.doubleQuotes = 0 && !t.newline then .basic
  else if !t.control && t.singleQuotes = 0 && !t.newline then .literal
  else if !t.control && !t.backslash && t.doubleQuotes ≤ 2 then .longBasic
  else if !t.control && t.singleQuotes ≤ 2 then .longLiteral
  else if t.newline then .longBasic
  else .basic

/-- The escape of a character, if it needs one; a line feed needs none in the long notation. -/
def escape? (long : Bool) (c : Char) : Option (List Char) :=
  match c with
  | '\x08' => some ['\\', 'b']
  | '\t' => some ['\\', 't']
  | '\n' => if long then none else some ['\\', 'n']
  | '\x0c' => some ['\\', 'f']
  | '\r' => some ['\\', 'r']
  | '\\' => some ['\\', '\\']
  | c =>
    if c.toNat < 0x20 ∨ c.toNat = 0x7F then
      some ['\\', 'u', '0', '0', Text.upperHexDigit (c.toNat / 16),
        Text.upperHexDigit (c.toNat % 16)]
    else none

/-- The body of a string in double quotes; a quote is escaped if more than `allowed` quotes would
stand in a row, of which `quotes` stand here already. -/
def escapeAll (long : Bool) (allowed quotes : Nat) : List Char → List Char
  | [] => []
  | c :: rest =>
    if c = '"' then
      if quotes + 1 ≤ allowed then '"' :: escapeAll long allowed (quotes + 1) rest
      else '\\' :: '"' :: escapeAll long allowed 0 rest
    else
      match escape? long c with
      | some cs => cs ++ escapeAll long allowed 0 rest
      | none => c :: escapeAll long allowed 0 rest

/-- The written form of a string. -/
def writeString (s : String) : List Char :=
  let cs := s.toList
  let t := Traits.of cs
  let start := if t.newline then ['\n'] else []
  match t.pick with
  | .basic => '"' :: escapeAll false 0 0 cs ++ ['"']
  | .literal => '\'' :: cs ++ ['\'']
  | .longBasic => ['"', '"', '"'] ++ start ++ escapeAll true 2 0 cs ++ ['"', '"', '"']
  | .longLiteral => ['\'', '\'', '\''] ++ start ++ cs ++ ['\'', '\'', '\'']

/-- The written form of an array of strings. -/
def writeStrings : List String → List Char
  | [] => ['[', ']']
  | [s] => '[' :: writeString s ++ [']']
  | items =>
    ['[', '\n'] ++ items.flatMap (fun s => [' ', ' ', ' ', ' '] ++ writeString s ++ [',', '\n']) ++
      [']']

/-- A value that a document of settings may hold. -/
inductive Setting where
  | text (s : String)
  | number (n : Nat)
  | flag (b : Bool)
  | texts (items : List String)
  deriving DecidableEq, Repr

/-- The written form of a setting. -/
def Setting.write : Setting → List Char
  | text s => writeString s
  | number n => Nat.toDigits 10 n
  | flag true => ['t', 'r', 'u', 'e']
  | flag false => ['f', 'a', 'l', 's', 'e']
  | texts items => writeStrings items

/-- A section: its name and its settings. -/
structure Section where
  name : String
  settings : List (String × Setting)
  deriving DecidableEq, Repr

/-- The written form of a section: its header, then one setting after the other. -/
def Section.write (s : Section) : List Char :=
  '[' :: s.name.toList ++ [']', '\n'] ++
    s.settings.flatMap fun (key, setting) =>
      key.toList ++ [' ', '=', ' '] ++ setting.write ++ ['\n']

/-- The written form of sections, with a blank line between two of them. -/
def render (sections : List Section) : String :=
  String.ofList (['\n'].intercalate (sections.map Section.write))

end ContractConversion.Toml
