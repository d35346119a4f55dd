import ContractConversion.Json.Printer
import ContractConversion.Text.Quoted
import ContractConversion.Text.Utf8

/-!
# Faults of a JSON reader

A text can fail to be JSON, or it can be JSON and fail to be the record that was asked for. Each
fault has a cause, with its wording, and the byte offset that it names.
-/

namespace ContractConversion.Json

open Text (Symbol)

/-- What a reader found in the place of what it wanted. -/
inductive Found where
  | null
  | bool (b : Bool)
  | num (n : Number)
  | str (s : String)
  | seq
  | map
  deriving DecidableEq, Repr

/-- Why a text is no JSON. -/
inductive SyntaxCause where
  | endInValue
  | endInString
  | endInObject
  | endInList
  | expectedValue
  | expectedWord
  | expectedColon
  | expectedCommaOrBrace
  | expectedCommaOrBracket
  | trailingComma
  | trailingCharacters
  | keyNotString
  | invalidNumber
  | numberOutOfRange
  | invalidEscape
  | unpairedEscape
  | loneSurrogate
  | controlCharacter
  | invalidCodePoint
  | tooDeep
  deriving DecidableEq, Repr

/-- Why JSON is not the record that was asked for. -/
inductive DataCause where
  | invalidType (found : Found) (expected : String)
  | invalidValue (found : Found) (expected : String)
  | invalidLength (length : Nat) (expected : String)
  | unknownVariant (name : String) (known : List String)
  | missingField (name : String)
  | duplicateField (name : String)
  | unreadable (reason : String)
  deriving DecidableEq, Repr

/-- The cause of a fault. -/
inductive Cause where
  | ill (cause : SyntaxCause)
  | data (cause : DataCause)
  deriving DecidableEq, Repr

/-- A fault and the byte offset that it names. -/
structure Fault where
  cause : Cause
  offset : Nat
  deriving DecidableEq, Repr

namespace Found

/-- How a message names a value. -/
def describe : Found → String
  | null => "null"
  | bool b => "boolean `" ++ (if b then "true" else "false") ++ "`"
  | num (.int n) => "integer `" ++ String.ofList (Number.intText n) ++ "`"
  | num (.double bits) => "floating point `" ++ String.ofList (Number.doubleText bits) ++ "`"
  | str s => "string " ++ Text.Quoted.encode s
  | seq => "sequence"
  | map => "map"

end Found

namespace SyntaxCause

/-- The wording of the cause. -/
def message : SyntaxCause → String
  | endInValue => "EOF while parsing a value"
  | endInString => "EOF while parsing a string"
  | endInObject => "EOF while parsing an object"
  | endInList => "EOF while parsing a list"
  | expectedValue => "expected value"
  | expectedWord => "expected ident"
  | expectedColon => "expected `:`"
  | expectedCommaOrBrace => "expected `,` or `\x7d`"
  | expectedCommaOrBracket => "expected `,` or `]`"
  | trailingComma => "trailing comma"
  | trailingCharacters => "trailing characters"
  | keyNotString => "key must be a string"
  | invalidNumber => "invalid number"
  | numberOutOfRange => "number out of range"
  | invalidEscape => "invalid escape"
  | unpairedEscape => "unexpected end of hex escape"
  | loneSurrogate => "lone leading surrogate in hex escape"
  | controlCharacter => "control character (\\u0000-\\u001F) found while parsing a string"
  | invalidCodePoint => "invalid unicode code point"
  | tooDeep => "recursion limit exceeded"

end SyntaxCause

namespace DataCause

/-- A name between backquotes. -/
def ticked (name : String) : String :=
  "`" ++ name ++ "`"

/-- How a message lists the names it would accept. -/
def oneOf : List String → String
  | [] => "there are no variants"
  | [a] => "expected " ++ ticked a
  | [a, b] => "expected " ++ ticked a ++ " or " ++ ticked b
  | names => "expected one of " ++ ", ".intercalate (names.map ticked)

/-- The wording of the cause. -/
def message : DataCause → String
  | invalidType found expected => "invalid type: " ++ found.describe ++ ", expected " ++ expected
  | invalidValue found expected => "invalid value: " ++ found.describe ++ ", expected " ++ expected
  | invalidLength n expected => "invalid length " ++ toString n ++ ", expected " ++ expected
  | unknownVariant name known => "unknown variant " ++ ticked name ++ ", " ++ oneOf known
  | missingField name => "missing field " ++ ticked name
  | duplicateField name => "duplicate field " ++ ticked name
  | unreadable reason => reason

end DataCause

/-- The wording of a cause. -/
def Cause.message : Cause → String
  | ill cause => cause.message
  | data cause => cause.message

/-- A line, counted from one, and the number of bytes before a place in it. -/
structure Position where
  line : Nat
  column : Nat
  deriving DecidableEq, Repr

namespace Position

/-- Moves over the symbols of the first `bytes` bytes. -/
def advance : Position → Nat → List Symbol → Position
  | p, _, [] => p
  | p, bytes, s :: rest =>
    if bytes = 0 then p
    else if bytes < s.width then ⟨p.line, p.column + bytes⟩
    else
      advance (if s = .char '\n' then ⟨p.line + 1, 0⟩ else ⟨p.line, p.column + s.width⟩)
        (bytes - s.width) rest

/-- The position of a byte offset. -/
def ofOffset (input : List Symbol) (offset : Nat) : Position :=
  advance ⟨1, 0⟩ offset input

end Position

namespace Fault

/-- A fault of the text. -/
def syntaxAt (cause : SyntaxCause) (offset : Nat) : Fault :=
  ⟨.ill cause, offset⟩

/-- A fault of the data. -/
def dataAt (cause : DataCause) (offset : Nat) : Fault :=
  ⟨.data cause, offset⟩

/-- Whether the text is JSON, but not the record asked for. -/
def isData (f : Fault) : Bool :=
  match f.cause with
  | .data _ => true
  | .ill _ => false

/-- The wording, without a place. -/
def message (f : Fault) : String :=
  f.cause.message

/-- The wording with the line and column in the input. -/
def messageIn (f : Fault) (input : List Symbol) : String :=
  let p := Position.ofOffset input f.offset
  f.message ++ " at line " ++ toString p.line ++ " column " ++ toString p.column

end Fault

end ContractConversion.Json
