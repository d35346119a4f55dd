import ContractConversion.Json.Fault
import ContractConversion.Text.Digits

/-!
# Lexemes of JSON

A text is cut into lexemes: signs, words, numbers and strings, each with the offsets of its first
byte and of the byte behind it. A number or a string that cannot be read can still be passed over by
a reader that has no use for it, so a lexeme says separately how reading it and how skipping it
fails. Where a lexeme cannot even be skipped, the list ends.

A number without fraction and exponent is an integer if it fits the 64-bit range. Any other is
computed in binary64: as many digits as fit 64 bits, times or divided by a power of ten.
-/

namespace ContractConversion.Json

open Text (Symbol)

/-- The signs of the grammar. -/
inductive Sign where
  | braceOpen
  | braceClose
  | bracketOpen
  | bracketClose
  | colon
  | comma
  deriving DecidableEq, Repr

/-- What a lexeme is. -/
inductive Token where
  | sign (s : Sign)
  | null
  | bool (b : Bool)
  | num (read : Except Fault Number) (skip : Option Fault)
  | str (read : Except Fault String) (skip : Option Fault)
  /-- The first letter of a word that goes on wrongly. -/
  | badWord (fault : Fault)
  /-- A character that starts nothing. -/
  | other
  /-- The end of the text. -/
  | finish

/-- A token with the offset of its first byte and the offset behind it. -/
structure Lexeme where
  token : Token
  start : Nat
  stop : Nat

namespace Number

/-- Digits and a power of ten, as collected while reading: the digits that fit 64 bits, and the
exponent that goes with them. -/
structure Draft where
  significand : Nat
  exponent : Int
  deriving DecidableEq, Repr

/-- The binary64 nearest to `10^n`, for `n` up to 308. -/
def powerOfTen (n : Nat) : Float :=
  Float.ofScientific 1 false n

/-- Scales by a power of ten, in steps that stay in the range of the powers; `none` if the value
leaves the range of doubles. -/
def scale : Nat → Float → Int → Option Float
  | 0, f, _ => some f
  | fuel + 1, f, e =>
    if e.natAbs ≤ 308 then
      if 0 ≤ e then
        let scaled := f * powerOfTen e.toNat
        if scaled.isInf then none else some scaled
      else some (f / powerOfTen e.natAbs)
    else if f == 0.0 then some f
    else if 0 ≤ e then none
    else scale fuel (f / powerOfTen 308) (e + 308)

/-- The double of a draft. -/
def Draft.toDouble? (d : Draft) (negative : Bool) : Option Number :=
  let f := Float.ofNat d.significand
  (scale (d.exponent.natAbs / 308 + 2) f d.exponent).map fun g =>
    .double (if negative then -g else g).toBits

/-- The number of an integer's digits: minus zero and what exceeds 64 bits is a double. -/
def ofInteger (significand : Nat) (negative : Bool) : Number :=
  if negative then
    if significand = 0 ∨ Nat.pow 2 63 < significand then .double (-(Float.ofNat significand)).toBits
    else .int (-(significand : Int))
  else .int significand

/-- The greatest 64-bit number. -/
def limit : Nat := Nat.pow 2 64 - 1

/-- Collects the digits of the whole part. From the first digit that does not fit on, digits only
raise the exponent. -/
def wholePart : List Char → Draft → Draft
  | [], d => d
  | c :: rest, d =>
    let digit := c.toNat - '0'.toNat
    if d.exponent = 0 ∧ d.significand * 10 + digit ≤ limit then
      wholePart rest ⟨d.significand * 10 + digit, 0⟩
    else wholePart rest ⟨d.significand, d.exponent + 1⟩

/-- Collects the digits of the fraction up to the first that does not fit. -/
def fractionPart : List Char → Draft → Draft
  | [], d => d
  | c :: rest, d =>
    let digit := c.toNat - '0'.toNat
    if d.significand * 10 + digit ≤ limit then
      fractionPart rest ⟨d.significand * 10 + digit, d.exponent - 1⟩
    else d

/-- The written exponent, if it fits 31 bits, and else the number of its digits up to the one that
makes it too large. -/
def exponentPart : List Char → Nat → Nat → Except Nat Nat
  | [], _, value => .ok value
  | c :: rest, used, value =>
    let value := value * 10 + (c.toNat - '0'.toNat)
    if value < Nat.pow 2 31 then exponentPart rest (used + 1) value else .error (used + 1)

end Number

namespace Lexer

/-- A decimal digit. -/
def digit? : Symbol → Option Char
  | .char c => if '0' ≤ c ∧ c ≤ '9' then some c else none
  | .stray _ => none

/-- The digits at the front and what follows. -/
def digits : List Symbol → List Char → List Char × List Symbol
  | [], acc => (acc.reverse, [])
  | s :: rest, acc =>
    match digit? s with
    | some c => digits rest (c :: acc)
    | none => (acc.reverse, s :: rest)

/-- The front of the input is the character `c`. -/
def startsWith (c : Char) : List Symbol → Bool
  | s :: _ => s = .char c
  | [] => false

/-- A number ends in a fault: how it is read and how it is skipped. -/
def badNumber (read skip : Fault) (rest : List Symbol) : Token × List Symbol :=
  (.num (.error read) (some skip), rest)

/-- The faults of a place where a digit has to stand: of a reader that takes the character before it
complains, or of one that only looks at it. -/
def missingDigit (offset : Nat) : List Symbol → Token × List Symbol
  | [] =>
    badNumber (.syntaxAt .endInValue offset) (.syntaxAt .invalidNumber offset) []
  | s :: rest =>
    badNumber (.syntaxAt .invalidNumber (offset + 1)) (.syntaxAt .invalidNumber (offset + 1))
      (s :: rest)

/-- Reads a value that is no integer. -/
def finishDouble (d : Number.Draft) (negative : Bool) (stop : Nat) : Except Fault Number :=
  match d.toDouble? negative with
  | some n => .ok n
  | none => .error (.syntaxAt .numberOutOfRange stop)

/-- The exponent of a number, from behind its letter on. -/
def exponent (d : Number.Draft) (negative : Bool) (offset : Nat) (input : List Symbol) :
    Token × List Symbol × Nat :=
  let down := startsWith '-' input
  let (input, offset) :=
    if down ∨ startsWith '+' input then (input.drop 1, offset + 1) else (input, offset)
  let (ds, rest) := digits input []
  let stop := offset + ds.length
  match ds with
  | [] => let (t, r) := missingDigit offset input; (t, r, offset)
  | _ =>
    let read : Except Fault Number :=
      match Number.exponentPart ds 0 0 with
      | .ok e =>
        finishDouble ⟨d.significand, d.exponent + (if down then -(e : Int) else e)⟩ negative stop
      | .error used =>
        if d.significand ≠ 0 ∧ ¬ down then .error (.syntaxAt .numberOutOfRange (offset + used))
        else .ok (.double (if negative then (-0.0 : Float) else 0.0).toBits)
    (.num read none, rest, stop)

/-- What follows the whole part of a number. -/
def afterWhole (d : Number.Draft) (negative : Bool) (offset : Nat) (input : List Symbol) :
    Token × List Symbol × Nat :=
  if startsWith '.' input then
    let (ds, rest) := digits (input.drop 1) []
    let stop := offset + 1 + ds.length
    match ds with
    | [] => let (t, r) := missingDigit (offset + 1) (input.drop 1); (t, r, offset + 1)
    | _ =>
      let d := Number.fractionPart ds d
      if startsWith 'e' rest ∨ startsWith 'E' rest then
        exponent d negative (stop + 1) (rest.drop 1)
      else (.num (finishDouble d negative stop) none, rest, stop)
  else if startsWith 'e' input ∨ startsWith 'E' input then
    exponent d negative (offset + 1) (input.drop 1)
  else
    let read : Except Fault Number :=
      if d.exponent = 0 then .ok (Number.ofInteger d.significand negative)
      else finishDouble d negative offset
    (.num read none, input, offset)

/-- A number, from behind its sign on: at most one leading zero, then what follows the whole part.
The last component is the offset behind it. -/
def number (negative : Bool) (offset : Nat) (input : List Symbol) : Token × List Symbol × Nat :=
  let (ds, rest) := digits input []
  match ds with
  | [] => let (t, r) := missingDigit offset input; (t, r, offset)
  | '0' :: _ :: _ =>
    let fault := Fault.syntaxAt .invalidNumber (offset + 2)
    let (t, r) := badNumber fault fault rest
    (t, r, offset + ds.length)
  | _ => afterWhole (Number.wholePart ds ⟨0, 0⟩) negative (offset + ds.length) rest

/-- The value of a hexadecimal digit. -/
def hexValue? : Symbol → Option Nat
  | .char c => (Text.hexValue? c).map (·.val)
  | .stray _ => none

/-- The number of bytes of an input. -/
def totalWidth (input : List Symbol) : Nat :=
  input.foldl (fun n s => n + s.width) 0

/-- The number written by four hexadecimal digits and the rest of the input, or the fault. -/
def hexEscape (offset : Nat) : List Symbol → Except Fault (Nat × List Symbol)
  | a :: b :: c :: d :: rest =>
    match hexValue? a, hexValue? b, hexValue? c, hexValue? d with
    | some x, some y, some z, some w => .ok (((x * 16 + y) * 16 + z) * 16 + w, rest)
    | _, _, _, _ => .error (.syntaxAt .invalidEscape (offset + 4))
  | input =>
    let width := totalWidth input
    if 4 ≤ width then .error (.syntaxAt .invalidEscape (offset + 4))
    else .error (.syntaxAt .endInString (offset + width))

/-- The second half of a pair of escapes, behind the first half `lead`: the character and the rest
of the input behind six more bytes, or the fault. -/
def trailEscape (lead offset : Nat) (input : List Symbol) : Except Fault (Char × List Symbol) :=
  match input with
  | [] => .error (.syntaxAt .endInString offset)
  | s :: rest =>
    if s ≠ .char '\\' then .error (.syntaxAt .unpairedEscape (offset + 1))
    else match rest with
      | [] => .error (.syntaxAt .endInString (offset + 1))
      | t :: rest =>
        if t ≠ .char 'u' then .error (.syntaxAt .unpairedEscape (offset + 2))
        else match hexEscape (offset + 2) rest with
          | .error f => .error f
          | .ok (trail, rest) =>
            if trail < 0xDC00 ∨ 0xDFFF < trail then
              .error (.syntaxAt .loneSurrogate (offset + 6))
            else
              .ok (Char.ofNat ((lead - 0xD800) * 0x400 + (trail - 0xDC00) + 0x10000), rest)

/-- The character of a one-letter escape. -/
def simpleEscape? : Char → Option Char
  | '"' => some '"'
  | '\\' => some '\\'
  | '/' => some '/'
  | 'b' => some '\x08'
  | 'f' => some '\x0c'
  | 'n' => some '\n'
  | 'r' => some '\r'
  | 't' => some '\t'
  | _ => none

/-- A string under construction: its characters, last first, and the first fault of reading it. A
stray byte run is a fault only at the closing quote. -/
structure StringState where
  chars : List Char
  fault : Option Fault
  stray : Bool

namespace StringState

/-- A string that ends at the offset `stop`. -/
def close (st : StringState) (stop : Nat) : Except Fault String :=
  match st.fault with
  | some f => .error f
  | none =>
    if st.stray then .error (.syntaxAt .invalidCodePoint stop)
    else .ok (String.ofList st.chars.reverse)

/-- A string that cannot be skipped either. -/
def broken (st : StringState) (read skip : Fault) : Token :=
  .str (.error (st.fault.getD read)) (some skip)

/-- Notes a fault of reading, unless there is an earlier one. -/
def blame (st : StringState) (f : Fault) : StringState :=
  { st with fault := st.fault.or (some f) }

def push (st : StringState) (c : Char) : StringState :=
  { st with chars := c :: st.chars }

end StringState

/-- A string, from behind its opening quote on; each round takes one character or one escape. The
last component is the offset behind it. -/
def string : Nat → StringState → Nat → List Symbol → Token × List Symbol × Nat
  | 0, st, offset, _ =>
    let f := Fault.syntaxAt .endInString offset
    (st.broken f f, [], offset)
  | fuel + 1, st, offset, input =>
    match input with
    | [] =>
      let f := Fault.syntaxAt .endInString offset
      (st.broken f f, [], offset)
    | .stray bytes :: rest => string fuel { st with stray := true } (offset + bytes.length) rest
    | .char '"' :: rest => (.str (st.close (offset + 1)) none, rest, offset + 1)
    | .char '\\' :: [] =>
      let f := Fault.syntaxAt .endInString (offset + 1)
      (st.broken f f, [], offset + 1)
    | .char '\\' :: .char 'u' :: rest =>
      match hexEscape (offset + 2) rest with
      | .error f => (st.broken f f, [], offset + 2)
      | .ok (n, rest) =>
        if n < 0xD800 ∨ 0xDFFF < n then
          string fuel (st.push (Char.ofNat n)) (offset + 6) rest
        else if 0xDC00 ≤ n then
          string fuel (st.blame (.syntaxAt .loneSurrogate (offset + 6))) (offset + 6) rest
        else
          match trailEscape n (offset + 6) rest with
          | .ok (c, rest) => string fuel (st.push c) (offset + 12) rest
          | .error f => string fuel (st.blame f) (offset + 6) rest
    | .char '\\' :: .char c :: rest =>
      match simpleEscape? c with
      | some d => string fuel (st.push d) (offset + 2) rest
      | none =>
        let f := Fault.syntaxAt .invalidEscape (offset + 2)
        (st.broken f f, [], offset + 2)
    | .char '\\' :: .stray _ :: _ =>
      let f := Fault.syntaxAt .invalidEscape (offset + 2)
      (st.broken f f, [], offset + 2)
    | .char c :: rest =>
      if c.toNat < 0x20 then
        (st.broken (.syntaxAt .controlCharacter (offset + 1)) (.syntaxAt .controlCharacter offset),
          [], offset)
      else string fuel (st.push c) (offset + c.utf8Size) rest

/-- The letters of a word, from behind its first one on. -/
def word (token : Token) (offset : Nat) : List Char → List Symbol → Token × List Symbol × Nat
  | [], input => (token, input, offset)
  | _ :: _, [] => (.badWord (.syntaxAt .endInValue offset), [], offset)
  | c :: letters, s :: rest =>
    if s = .char c then word token (offset + 1) letters rest
    else (.badWord (.syntaxAt .expectedWord (offset + 1)), [], offset)

/-- The blanks between lexemes. -/
def isSpace (c : Char) : Bool :=
  c == ' ' || c == '\n' || c == '\t' || c == '\r'

/-- The sign that a character is. -/
def sign? : Char → Option Sign
  | '\x7b' => some .braceOpen
  | '\x7d' => some .braceClose
  | '[' => some .bracketOpen
  | ']' => some .bracketClose
  | ':' => some .colon
  | ',' => some .comma
  | _ => none

/-- The token that starts with the character `c`, at the offset of `c`. -/
def token (c : Char) (offset : Nat) (rest : List Symbol) : Token × List Symbol × Nat :=
  match sign? c with
  | some s => (.sign s, rest, offset + 1)
  | none =>
    if c = '"' then string (rest.length + 1) ⟨[], none, false⟩ (offset + 1) rest
    else if c = 'n' then word .null (offset + 1) ['u', 'l', 'l'] rest
    else if c = 't' then word (.bool true) (offset + 1) ['r', 'u', 'e'] rest
    else if c = 'f' then word (.bool false) (offset + 1) ['a', 'l', 's', 'e'] rest
    else if c = '-' then number true (offset + 1) rest
    else if '0' ≤ c ∧ c ≤ '9' then number false offset (.char c :: rest)
    else (.other, [], offset + 1)

/-- Lexemes from an offset on, in front of the ones found so far, last first. -/
def run : Nat → Nat → List Symbol → List Lexeme → List Lexeme
  | 0, offset, _, acc => (⟨.finish, offset, offset⟩ :: acc).reverse
  | _ + 1, offset, [], acc => (⟨.finish, offset, offset⟩ :: acc).reverse
  | fuel + 1, offset, .char c :: rest, acc =>
    if isSpace c then run fuel (offset + 1) rest acc
    else
      let (t, rest, stop) := token c offset rest
      run fuel stop rest (⟨t, offset, stop⟩ :: acc)
  | fuel + 1, offset, .stray bytes :: _, acc =>
    run fuel offset [] (⟨.other, offset, offset + bytes.length⟩ :: acc)

end Lexer

/-- The lexemes of a text; the last one is its end. -/
def lexemes (input : List Symbol) : List Lexeme :=
  Lexer.run (input.length + 1) 0 input []

end ContractConversion.Json
