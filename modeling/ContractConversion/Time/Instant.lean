import ContractConversion.Text.Blank
import ContractConversion.Text.Digits
import ContractConversion.Time.Calendar

/-!
# Instants

An instant is written in UTC as RFC 3339 has it, with no places of a second or with three, six or
nine, as many as it needs. Reading is more generous: blanks may stand before each number and each
separator, a space or a small `t` between date and time, `UTC` or `z` for the offset, a signed year
of any length, and places beyond the ninth are dropped. A leap second is the second 59 with a
billion nanoseconds or more.

The years are those from -262143 to 262142, both as they are read and in UTC.
-/

namespace ContractConversion.Time

/-- Seconds since 1970-01-01T00:00:00Z, and nanoseconds in that second; a leap second has a billion
or more of them. -/
structure Instant where
  seconds : Int
  nanos : Nat
  deriving DecidableEq, Repr, Inhabited

/-- Why a text is no instant. -/
inductive InstantFault where
  | outOfRange
  /-- In UTC the date is out of range. -/
  | impossible
  | invalid
  | tooShort
  | tooLong
  deriving DecidableEq, Repr

namespace InstantFault

/-- The wording of the fault. -/
def message : InstantFault → String
  | outOfRange => "input is out of range"
  | impossible => "no possible date and time matching input"
  | invalid => "input contains invalid characters"
  | tooShort => "premature end of input"
  | tooLong => "trailing input"

end InstantFault

namespace Instant

/-- The decimal digits of `n`, with zeros in front up to a width. -/
def padded (width n : Nat) : String :=
  let digits := Nat.toDigits 10 n
  String.ofList (List.replicate (width - digits.length) '0' ++ digits)

/-- A year has four digits; outside of 0 to 9999 it has a sign too. -/
def yearText (year : Int) : String :=
  if 0 ≤ year ∧ year ≤ 9999 then padded 4 year.toNat
  else (if year < 0 then "-" else "+") ++ padded 4 year.natAbs

/-- The places of a second, if there are any. -/
def fractionText (nanos : Nat) : String :=
  if nanos = 0 then ""
  else if nanos % 1000000 = 0 then "." ++ padded 3 (nanos / 1000000)
  else if nanos % 1000 = 0 then "." ++ padded 6 (nanos / 1000)
  else "." ++ padded 9 nanos

/-- Whether there are instants in a year. -/
def hasYear (year : Int) : Bool :=
  -262143 ≤ year ∧ year ≤ 262142

/-- The day of an instant and the second of that day. -/
def split (t : Instant) : Date × Nat :=
  (.ofDays (Int.fdiv t.seconds 86400), (Int.fmod t.seconds 86400).toNat)

/-- The second of the minute, 60 in a leap second. -/
def secondOfMinute (t : Instant) : Nat :=
  (Int.fmod t.seconds 60).toNat + t.nanos / 1000000000

/-- The written form, in UTC. -/
def format (t : Instant) : String :=
  let (date, second) := t.split
  yearText date.year ++ "-" ++ padded 2 date.month ++ "-" ++ padded 2 date.day ++ "T" ++
    padded 2 (second / 3600) ++ ":" ++ padded 2 (second / 60 % 60) ++ ":" ++
    padded 2 t.secondOfMinute ++ fractionText (t.nanos % 1000000000) ++ "Z"

/-- The time of day, with three places of a second. -/
def clockText (t : Instant) : String :=
  let (_, second) := t.split
  padded 2 (second / 3600) ++ ":" ++ padded 2 (second / 60 % 60) ++ ":" ++
    padded 2 t.secondOfMinute ++ "." ++ padded 3 (t.nanos % 1000000000 / 1000000)

namespace Reader

open Text (digitValue valueIn)

/-- A number of one to `width` digits, below `2^63`. -/
def number (width : Nat) (cs : List Char) : Except InstantFault (Nat × List Char) :=
  let digits := (cs.take width).takeWhile Char.isDigit
  match cs, digits with
  | [], _ => .error .tooShort
  | _, [] => .error .invalid
  | cs, digits =>
    let n := valueIn 10 digits
    if n < Nat.pow 2 63 then .ok (n, cs.drop digits.length) else .error .outOfRange

/-- A number in a range, after blanks. -/
def field (width low high : Nat) (cs : List Char) : Except InstantFault (Nat × List Char) := do
  let (n, rest) ← number width (cs.dropWhile Text.isBlank)
  if low ≤ n ∧ n ≤ high then return (n, rest) else throw .outOfRange

/-- A year: four digits at most, or any number of them behind a sign. -/
def year (cs : List Char) : Except InstantFault (Int × List Char) := do
  match cs.dropWhile Text.isBlank with
  | '-' :: rest => do
    let (n, rest) ← number rest.length rest
    inRange (-(n : Int)) rest
  | '+' :: rest => do
    let (n, rest) ← number rest.length rest
    inRange n rest
  | cs => do
    let (n, rest) ← number 4 cs
    inRange n rest
where
  /-- A year of 32 bits. -/
  inRange (n : Int) (rest : List Char) : Except InstantFault (Int × List Char) :=
    if -2147483648 ≤ n ∧ n < 2147483648 then .ok (n, rest) else .error .outOfRange

/-- A separator, after blanks. -/
def literal (c : Char) (cs : List Char) : Except InstantFault (List Char) :=
  match cs.dropWhile Text.isBlank with
  | [] => .error .tooShort
  | d :: rest => if d = c then .ok rest else .error .invalid

/-- Nanoseconds from the digits behind the point; the ones beyond the ninth are dropped. -/
def fraction (cs : List Char) : Except InstantFault (Nat × List Char) :=
  match cs with
  | '.' :: rest => do
    let (n, after) ← number 9 rest
    let used := rest.length - after.length
    return (n * Nat.pow 10 (9 - used), after.dropWhile Char.isDigit)
  | cs => .ok (0, cs)

/-- The number of bytes of a text. -/
def bytes (cs : List Char) : Nat :=
  cs.foldl (fun n c => n + c.utf8Size) 0

/-- Hours and minutes of an offset, behind its sign, in seconds. -/
def offsetValue (cs : List Char) : Except InstantFault (Nat × List Char) := do
  if bytes cs < 2 then throw .tooShort
  let (hours, cs) ← match cs with
    | a :: b :: rest =>
      if a.isDigit && b.isDigit then pure (digitValue a * 10 + digitValue b, rest)
      else throw .invalid
    | _ => throw .invalid
  let cs := cs.dropWhile fun c => c = ':' || Text.isBlank c
  if bytes cs < 2 then throw .tooShort
  match cs with
  | a :: b :: rest =>
    if a.isDigit && b.isDigit then
      if digitValue a < 6 then
        return (hours * 3600 + (digitValue a * 10 + digitValue b) * 60, rest)
      else throw .outOfRange
    else throw .invalid
  | _ => throw .invalid

/-- The distance from UTC, in seconds. -/
def offset (cs : List Char) : Except InstantFault (Int × List Char) :=
  match cs with
  | [] => .error .tooShort
  | 'Z' :: rest | 'z' :: rest => .ok (0, rest)
  | '+' :: rest => do
    let (n, rest) ← offsetValue rest
    return ((n : Int), rest)
  | '-' :: rest | '\u2212' :: rest => do
    let (n, rest) ← offsetValue rest
    return (-(n : Int), rest)
  | u :: t :: c :: rest =>
    if u.toUpper = 'U' ∧ t.toUpper = 'T' ∧ c.toUpper = 'C' then .ok (0, rest) else .error .invalid
  | _ => .error .invalid

/-- The mark between date and time. -/
def divider (cs : List Char) : Except InstantFault (List Char) :=
  match cs with
  | [] => .error .tooShort
  | c :: rest => if c = 'T' ∨ c = 't' ∨ c = ' ' then .ok rest else .error .invalid

end Reader

open Reader in
/-- Reads an instant. Its year has to be in range, here and in UTC, and the distance from UTC less
than a day. -/
def parse (s : String) : Except InstantFault Instant := do
  let (y, cs) ← year s.toList
  let (month, cs) ← field 2 1 12 (← literal '-' cs)
  let (day, cs) ← field 2 1 31 (← literal '-' cs)
  let (hour, cs) ← field 2 0 23 (← divider cs)
  let (minute, cs) ← field 2 0 59 (← literal ':' cs)
  let (second, cs) ← field 2 0 60 (← literal ':' cs)
  let (nanos, cs) ← fraction cs
  let (shift, cs) ← offset (cs.dropWhile Text.isBlank)
  if !(cs.all Text.isBlank) then throw .tooLong
  let date : Date := ⟨y, month, day⟩
  if !hasYear y ∨ !date.isValid ∨ shift.natAbs ≥ 86400 then throw .outOfRange
  let leap := second / 60
  let t : Instant :=
    ⟨date.toDays * 86400 + ((hour * 3600 + minute * 60 + (second - leap) : Nat) : Int) - shift,
      nanos + leap * 1000000000⟩
  if hasYear t.split.1.year then return t else throw .impossible

end Instant

end ContractConversion.Time
