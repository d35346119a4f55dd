import ContractConversion.Text.Digits
import ContractConversion.Time.Calendar
import ContractConversion.Toml.Document

/-!
# Reading TOML

A document is read line by line into its statements. A value is a string in one of four notations, a
number, a truth value, a time, an array, or a table in braces; the last two may span lines and end
with a comma. Each reader takes the text from where it stands and gives what it read and the rest of
the text.
-/

namespace ContractConversion.Toml.Reader

open Text (digitValue hexValue? valueIn)

/-- A blank inside a line. -/
def isBlank (c : Char) : Bool :=
  c = ' ' || c = '\t'

/-- A character that may stand in strings and comments as it is. -/
def isPlain (c : Char) : Bool :=
  c = '\t' || (0x20 ≤ c.toNat && c.toNat ≠ 0x7F)

def skipBlanks (cs : List Char) : List Char :=
  cs.dropWhile isBlank

/-- Passes over a line break. -/
def newline? : List Char → Option (List Char)
  | '\n' :: rest => some rest
  | '\r' :: '\n' :: rest => some rest
  | _ => none

def isHexDigit (c : Char) : Bool :=
  (hexValue? c).isSome

/-- The character written by a number of hexadecimal digits. -/
def hexChar (count : Nat) (cs : List Char) : Option (Char × List Char) :=
  let digits := cs.take count
  let n := valueIn 16 digits
  if digits.length = count ∧ digits.all isHexDigit ∧ (n < 0xD800 ∨ (0xDFFF < n ∧ n ≤ 0x10FFFF)) then
    some (Char.ofNat n, cs.drop count)
  else none

/-- The character of an escape, from behind its backslash on. -/
def escape : List Char → Option (Char × List Char)
  | 'b' :: rest => some ('\x08', rest)
  | 't' :: rest => some ('\t', rest)
  | 'n' :: rest => some ('\n', rest)
  | 'f' :: rest => some ('\x0c', rest)
  | 'r' :: rest => some ('\r', rest)
  | 'e' :: rest => some ('\x1b', rest)
  | '"' :: rest => some ('"', rest)
  | '\\' :: rest => some ('\\', rest)
  | 'x' :: rest => hexChar 2 rest
  | 'u' :: rest => hexChar 4 rest
  | 'U' :: rest => hexChar 8 rest
  | _ => none

/-- A string in double quotes, from behind the first one on. -/
def basicString : Nat → List Char → List Char → Option (String × List Char)
  | 0, _, _ => none
  | fuel + 1, acc, cs =>
    match cs with
    | '"' :: rest => some (String.ofList acc.reverse, rest)
    | '\\' :: rest => do
      let (c, rest) ← escape rest
      basicString fuel (c :: acc) rest
    | c :: rest => if isPlain c then basicString fuel (c :: acc) rest else none
    | [] => none

/-- A string in single quotes, from behind the first one on. -/
def literalString (acc : List Char) : List Char → Option (String × List Char)
  | '\'' :: rest => some (String.ofList acc.reverse, rest)
  | c :: rest => if isPlain c then literalString (c :: acc) rest else none
  | [] => none

/-- Passes over blanks and line breaks. -/
def skipLines (cs : List Char) : List Char :=
  cs.dropWhile fun c => isBlank c || c = '\n' || c = '\r'

/-- The end of a string in three quotes: one or two more quotes belong to the string. -/
def closing (quote : Char) (acc : List Char) (rest : List Char) : String × List Char :=
  let extra := (rest.take 2).takeWhile (· = quote)
  (String.ofList (acc.reverse ++ extra), rest.drop extra.length)

/-- A string in three double quotes. A backslash at the end of a line takes the blanks and line
breaks after it away. -/
def longBasicString : Nat → List Char → List Char → Option (String × List Char)
  | 0, _, _ => none
  | fuel + 1, acc, cs =>
    match cs with
    | '"' :: '"' :: '"' :: rest => some (closing '"' acc rest)
    | '\\' :: rest =>
      match escape rest with
      | some (c, rest) => longBasicString fuel (c :: acc) rest
      | none =>
        match newline? (skipBlanks rest) with
        | some rest => longBasicString fuel acc (skipLines rest)
        | none => none
    | '\r' :: '\n' :: rest => longBasicString fuel ('\n' :: '\r' :: acc) rest
    | c :: rest =>
      if isPlain c || c = '\n' then longBasicString fuel (c :: acc) rest else none
    | [] => none

/-- A string in three single quotes. -/
def longLiteralString (acc : List Char) : List Char → Option (String × List Char)
  | '\'' :: '\'' :: '\'' :: rest => some (closing '\'' acc rest)
  | '\r' :: '\n' :: rest => longLiteralString ('\n' :: '\r' :: acc) rest
  | c :: rest => if isPlain c || c = '\n' then longLiteralString (c :: acc) rest else none
  | [] => none

/-- The text without a line break at its front. -/
def dropNewline (cs : List Char) : List Char :=
  (newline? cs).getD cs

/-- A string in any of the four notations, if one stands here. -/
def string (cs : List Char) : Option (Option (String × List Char)) :=
  match cs with
  | '"' :: '"' :: '"' :: rest => some (longBasicString (rest.length + 1) [] (dropNewline rest))
  | '"' :: rest => some (basicString (rest.length + 1) [] rest)
  | '\'' :: '\'' :: '\'' :: rest => some (longLiteralString [] (dropNewline rest))
  | '\'' :: rest => some (literalString [] rest)
  | _ => none

/-- A character of a bare key. -/
def isBare (c : Char) : Bool :=
  c.isDigit || ('a' ≤ c && c ≤ 'z') || ('A' ≤ c && c ≤ 'Z') || c = '_' || c = '-'

/-- One part of a key: bare, or a string on one line. -/
def simpleKey (cs : List Char) : Option (String × List Char) :=
  match cs with
  | '"' :: rest => basicString (rest.length + 1) [] rest
  | '\'' :: rest => literalString [] rest
  | cs =>
    match cs.takeWhile isBare with
    | [] => none
    | name => some (String.ofList name, cs.dropWhile isBare)

/-- A key: its parts are separated by points, with blanks around them. -/
def key : Nat → List Char → Option (List String × List Char)
  | 0, _ => none
  | fuel + 1, cs => do
    let (part, rest) ← simpleKey (skipBlanks cs)
    match skipBlanks rest with
    | '.' :: rest =>
      let (path, rest) ← key fuel rest
      return (part :: path, rest)
    | rest => return ([part], rest)

/-- Passes over a comment, if one stands here. -/
def skipComment (cs : List Char) : List Char :=
  match cs with
  | '#' :: rest => rest.dropWhile isPlain
  | cs => cs

/-- Passes over blanks, line breaks and comments. -/
def skipSpace : Nat → List Char → List Char
  | 0, cs => cs
  | fuel + 1, cs =>
    let cs := skipBlanks cs
    match cs with
    | '#' :: _ => skipSpace fuel (skipComment cs)
    | cs =>
      match newline? cs with
      | some rest => skipSpace fuel rest
      | none => cs

/-! ## Numbers and times -/

/-- A run of digits in which single underscores may stand between two digits. -/
def digitRun (digit : Char → Bool) : List Char → Option (List Char)
  | [] => none
  | [c] => if digit c then some [c] else none
  | c :: '_' :: rest => if digit c then (digitRun digit rest).map (c :: ·) else none
  | c :: rest => if digit c then (digitRun digit rest).map (c :: ·) else none

/-- Digits without a leading zero, unless zero is the only digit. -/
def decimalRun (cs : List Char) : Option (List Char) :=
  match digitRun Char.isDigit cs with
  | some ('0' :: _ :: _) => none
  | r => r

/-- A sign at the front, and what follows it. -/
def signed (cs : List Char) : Bool × List Char :=
  match cs with
  | '+' :: rest => (false, rest)
  | '-' :: rest => (true, rest)
  | cs => (false, cs)

/-- The integer that the text is, of 128 bits at most. -/
def integer? (cs : List Char) : Option Int :=
  match cs with
  | '0' :: 'x' :: rest => (digitRun isHexDigit rest).map fun ds => (valueIn 16 ds : Int)
  | '0' :: 'o' :: rest =>
    (digitRun (fun c => '0' ≤ c && c ≤ '7') rest).map fun ds => (valueIn 8 ds : Int)
  | '0' :: 'b' :: rest =>
    (digitRun (fun c => c = '0' || c = '1') rest).map fun ds => (valueIn 2 ds : Int)
  | cs => do
    let (negative, rest) := signed cs
    let n := valueIn 10 (← decimalRun rest)
    if negative then
      if n ≤ Nat.pow 2 127 then return -(n : Int) else none
    else if n < Nat.pow 2 128 then return (n : Int)
    else none

/-- Whether the text is a float: digits with a fraction, an exponent or both, or one of the two
special words. -/
def isFloat (cs : List Char) : Bool :=
  let body := (signed cs).2
  if body = ['i', 'n', 'f'] ∨ body = ['n', 'a', 'n'] then true
  else
    let isMark := fun (c : Char) => c = 'e' || c = 'E'
    let mantissa := body.takeWhile (! isMark ·)
    let exponent := body.dropWhile (! isMark ·)
    let whole := mantissa.takeWhile (· ≠ '.')
    let fraction := mantissa.dropWhile (· ≠ '.')
    let wholeOk := (decimalRun whole).isSome
    let fractionOk := match fraction with
      | [] => true
      | _ :: digits => (digitRun Char.isDigit digits).isSome
    let exponentOk := match exponent with
      | [] => true
      | _ :: digits => (digitRun Char.isDigit (signed digits).2).isSome
    wholeOk && fractionOk && exponentOk && !(fraction.isEmpty && exponent.isEmpty)

/-- The number that a text of two digits is. -/
def twoDigits? : List Char → Option Nat
  | [a, b] => if a.isDigit && b.isDigit then some (digitValue a * 10 + digitValue b) else none
  | _ => none

/-- A date: year, month and day. -/
def isDate (cs : List Char) : Bool :=
  match cs with
  | [a, b, c, d, '-', e, f, '-', g, h] =>
    match twoDigits? [a, b], twoDigits? [c, d], twoDigits? [e, f], twoDigits? [g, h] with
    | some century, some year, some month, some day =>
      (⟨((century * 100 + year : Nat) : Int), month, day⟩ : Time.Date).isValid
    | _, _, _, _ => false
  | _ => false

/-- Two digits at the front below a limit, and the rest. -/
def below (limit : Nat) (cs : List Char) : Option (List Char) :=
  match twoDigits? (cs.take 2) with
  | some n => if n < limit then some (cs.drop 2) else none
  | none => none

/-- The rest behind a time of day: hours and minutes, then seconds and places if they are there. -/
def timeOfDay (cs : List Char) : Option (List Char) := do
  let cs ← below 24 cs
  match cs with
  | ':' :: cs =>
    let cs ← below 60 cs
    match cs with
    | ':' :: cs =>
      let cs ← below 61 cs
      match cs with
      | '.' :: cs =>
        if (cs.takeWhile Char.isDigit).isEmpty then none else some (cs.dropWhile Char.isDigit)
      | cs => some cs
    | cs => some cs
  | _ => none

/-- The distance from UTC at the end of a time. -/
def isOffset (cs : List Char) : Bool :=
  match cs with
  | [] => true
  | ['Z'] | ['z'] => true
  | sign :: rest =>
    (sign = '+' || sign = '-') &&
      match below 24 rest with
      | some (':' :: rest) => below 60 rest = some []
      | _ => false

/-- Whether the text is a date, a time, or both. -/
def isTime (cs : List Char) : Bool :=
  if isDate (cs.take 10) then
    match cs.drop 10 with
    | [] => true
    | mark :: rest =>
      (mark = 'T' || mark = 't' || mark = ' ') &&
        match timeOfDay rest with
        | some rest => isOffset rest
        | none => false
  else timeOfDay cs = some []

/-- A character of a value that is no string, array or table. -/
def isAtom (c : Char) : Bool :=
  isBare c || c = '+' || c = '.' || c = ':'

/-- The text of such a value. A date and a time may be separated by a blank. -/
def atomText (cs : List Char) : List Char × List Char :=
  let text := cs.takeWhile isAtom
  match cs.dropWhile isAtom with
  | ' ' :: d :: rest =>
    if isDate text ∧ d.isDigit then
      (text ++ ' ' :: (d :: rest).takeWhile isAtom, (d :: rest).dropWhile isAtom)
    else (text, ' ' :: d :: rest)
  | rest => (text, rest)

/-- A truth value, a number or a time. -/
def atom (cs : List Char) : Option (Value × List Char) :=
  let (text, rest) := atomText cs
  if text = ['t', 'r', 'u', 'e'] then some (.bool true, rest)
  else if text = ['f', 'a', 'l', 's', 'e'] then some (.bool false, rest)
  else
    match integer? text with
    | some n => some (.int n, rest)
    | none =>
      if isFloat text then some (.float, rest)
      else if isTime text then some (.time, rest)
      else none

/-! ## Values and statements -/

mutual

/-- A value. -/
def value : Nat → List Char → Option (Value × List Char)
  | 0, _ => none
  | fuel + 1, cs =>
    match string cs with
    | some r => r.map fun (s, rest) => (.str s, rest)
    | none =>
      match cs with
      | '[' :: rest => (array fuel rest).map fun (items, rest) => (.arr items, rest)
      | '\x7b' :: rest => do
        let (entries, rest) ← inlineTable fuel [] rest
        return (.table (Node.toEntries entries), rest)
      | cs => atom cs

/-- The items of an array, from behind its bracket or one of its commas on. -/
def array : Nat → List Char → Option (List Value × List Char)
  | 0, _ => none
  | fuel + 1, cs =>
    match skipSpace (cs.length + 1) cs with
    | ']' :: rest => some ([], rest)
    | cs => do
      let (v, rest) ← value fuel cs
      match skipSpace (rest.length + 1) rest with
      | ']' :: rest => return ([v], rest)
      | ',' :: rest =>
        let (items, rest) ← array fuel rest
        return (v :: items, rest)
      | _ => none

/-- The entries of a table in braces, from behind its brace or one of its commas on. -/
def inlineTable : Nat → Node.Entries → List Char → Option (Node.Entries × List Char)
  | 0, _, _ => none
  | fuel + 1, entries, cs =>
    match skipSpace (cs.length + 1) cs with
    | '\x7d' :: rest => some (entries, rest)
    | cs => do
      let (path, rest) ← key (cs.length + 1) cs
      match rest with
      | '=' :: rest =>
        let (v, rest) ← value fuel (skipBlanks rest)
        let entries ← Node.define v path entries
        match skipSpace (rest.length + 1) rest with
        | '\x7d' :: rest => return (entries, rest)
        | ',' :: rest => inlineTable fuel entries rest
        | _ => none
      | _ => none

end

/-- A header, an array header or a pair. -/
def statement (cs : List Char) : Option (Statement × List Char) :=
  match cs with
  | '[' :: '[' :: rest => do
    let (path, rest) ← key (rest.length + 1) rest
    match rest with
    | ']' :: ']' :: rest => return (.arrayHeader path, rest)
    | _ => none
  | '[' :: rest => do
    let (path, rest) ← key (rest.length + 1) rest
    match rest with
    | ']' :: rest => return (.header path, rest)
    | _ => none
  | cs => do
    let (path, rest) ← key (cs.length + 1) cs
    match rest with
    | '=' :: rest =>
      let cs := skipBlanks rest
      let (v, rest) ← value (2 * cs.length + 1) cs
      return (.pair path v, rest)
    | _ => none

/-- Statements, each on a line of its own; blank lines and comments count for nothing. -/
def statements : Nat → List Char → Option (List Statement)
  | 0, _ => none
  | fuel + 1, cs =>
    match skipSpace (cs.length + 1) cs with
    | [] => some []
    | cs => do
      let (s, rest) ← statement cs
      match skipComment (skipBlanks rest) with
      | [] => return [s]
      | rest =>
        let rest ← newline? rest
        return s :: (← statements fuel rest)

end ContractConversion.Toml.Reader

namespace ContractConversion.Toml

/-- Reads a document; a mark of the byte order at its front is passed over. -/
def parse (text : String) : Option (List (String × Value)) := do
  let cs := match text.toList with
    | '\ufeff' :: rest => rest
    | cs => cs
  build (← Reader.statements (cs.length + 1) cs)

end ContractConversion.Toml
