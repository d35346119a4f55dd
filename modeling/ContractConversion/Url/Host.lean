import ContractConversion.Url.Percent
import ContractConversion.Url.Punycode

/-!
# Hosts

A host is a name, or an address in one of two notations, which are written in one way whatever way
they are given in.
-/

namespace ContractConversion.Url

/-- The pieces between the given character. -/
def splitAt (c : Char) (cs : List Char) : List (List Char) :=
  cs.foldr (fun d pieces =>
    match pieces with
    | [] => [[d]]
    | piece :: rest => if d = c then [] :: piece :: rest else (d :: piece) :: rest) [[]]

/-! ## Addresses of four bytes -/

/-- The value of digits of a base. -/
def digitsValue? (base : Nat) (cs : List Char) : Option Nat :=
  cs.foldlM (fun n c => do
    let d ← Text.hexValue? c
    if d.val < base then some (n * base + d.val) else none) 0

/-- A number in octal, decimal or hexadecimal digits. -/
def number? : List Char → Option Nat
  | '0' :: 'x' :: rest | '0' :: 'X' :: rest => digitsValue? 16 rest
  | '0' :: d :: rest => digitsValue? 8 (d :: rest)
  | cs => if cs.isEmpty then none else digitsValue? 10 cs

/-- The pieces of a name without the empty one behind a last dot. -/
def labels (name : List Char) : List (List Char) :=
  match (splitAt '.' name).reverse with
  | [] :: piece :: rest => (piece :: rest).reverse
  | pieces => pieces.reverse

/-- Whether a name has to be an address: its last piece is a number. -/
def endsInNumber (name : List Char) : Bool :=
  match (labels name).getLast? with
  | none => false
  | some last => (!last.isEmpty && last.all Char.isDigit) || (number? last).isSome

/-- The address in numbers: the last one fills the bytes that the others leave. -/
def address4? (name : List Char) : Option Nat := do
  let parts ← (labels name).mapM number?
  let first := parts.dropLast
  let last ← parts.getLast?
  if 4 < parts.length ∨ first.any (255 < ·) ∨ Nat.pow 256 (5 - parts.length) ≤ last then none
  else
    let high := first.zipIdx.foldl (fun high (n, i) => high + n * Nat.pow 256 (3 - i)) 0
    some (high + last)

/-- An address of four bytes in writing. -/
def address4Text (n : Nat) : List Char :=
  let byte := fun i => toString (n / Nat.pow 256 i % 256)
  (byte 3 ++ "." ++ byte 2 ++ "." ++ byte 1 ++ "." ++ byte 0).toList

/-! ## Addresses of eight pieces -/

/-- A piece of at most four hexadecimal digits. -/
def piece? (cs : List Char) : Option Nat :=
  if cs.isEmpty ∨ 4 < cs.length then none else digitsValue? 16 cs

/-- Four bytes at the end of an address, as two pieces. -/
def lastBytes? (cs : List Char) : Option (List Nat) := do
  let parts := splitAt '.' cs
  let bytes ← parts.mapM fun part =>
    match part with
    | '0' :: _ :: _ => none
    | part => if part.isEmpty then none else digitsValue? 10 part
  match bytes with
  | [a, b, c, d] =>
    if bytes.all (· < 256) then some [a * 256 + b, c * 256 + d] else none
  | _ => none

/-- The pieces between colons; four bytes may stand at the end. -/
def pieces? (bytesAllowed : Bool) (cs : List Char) : Option (List Nat) :=
  if cs.isEmpty then some []
  else
    let parts := splitAt ':' cs
    match parts.getLast? with
    | some last =>
      if bytesAllowed && last.contains '.' then do
        return (← parts.dropLast.mapM piece?) ++ (← lastBytes? last)
      else parts.mapM piece?
    | none => none

/-- The characters before two colons and those behind, if there are two. -/
def atGap : List Char → List Char → Option (List Char × List Char)
  | _, [] => none
  | before, ':' :: ':' :: rest => some (before.reverse, rest)
  | before, c :: rest => atGap (c :: before) rest

/-- The eight pieces of an address; two colons stand for a run of zeros. -/
def address6? (cs : List Char) : Option (List Nat) :=
  match atGap [] cs with
  | none => do
    let pieces ← pieces? true cs
    if pieces.length = 8 then some pieces else none
  | some (before, behind) => do
    let first ← pieces? false before
    let last ← pieces? true behind
    let given := first.length + last.length
    if given < 8 then some (first ++ List.replicate (8 - given) 0 ++ last) else none

/-- The length of the run of zeros at the front. -/
def zeros (pieces : List Nat) : Nat :=
  (pieces.takeWhile (· = 0)).length

/-- The place and the length of the longest run of zeros, the first of several; a single zero is
none. -/
def longestZeros (pieces : List Nat) : Option (Nat × Nat) :=
  (List.range pieces.length).foldl (fun best i =>
    let run := zeros (pieces.drop i)
    if 1 < run && (best.map (·.2)).getD 1 < run then some (i, run) else best) none

/-- Pieces in writing. -/
def piecesText (pieces : List Nat) : List Char :=
  List.intercalate [':'] (pieces.map fun n => (Nat.toDigits 16 n))

/-- An address of eight pieces in writing. -/
def address6Text (pieces : List Nat) : List Char :=
  let inner := match longestZeros pieces with
    | none => piecesText pieces
    | some (place, run) =>
      piecesText (pieces.take place) ++ "::".toList ++ piecesText (pieces.drop (place + run))
  '[' :: inner ++ [']']

/-! ## Names -/

/-- The characters that no host can have. -/
def isForbidden (c : Char) : Bool :=
  c.toNat = 0 || "\t\n\r #/:<>?@[\\]^|".toList.contains c

/-- A letter in its small form: the letters of ASCII, and the capitals of Latin, Greek and Cyrillic
that have their small forms at a fixed distance. -/
def small (c : Char) : Char :=
  let n := c.toNat
  if n < 0x80 then c.toLower
  else if (0xC0 ≤ n ∧ n ≤ 0xDE ∧ n ≠ 0xD7) ∨ (0x391 ≤ n ∧ n ≤ 0x3A9) ∨ (0x410 ≤ n ∧ n ≤ 0x42F) then
    Char.ofNat (n + 0x20)
  else if 0x400 ≤ n ∧ n ≤ 0x40F then Char.ofNat (n + 0x50)
  else c

/-- A label of a name in ASCII. -/
def asciiLabel (label : List Char) : List Char :=
  let label := label.map small
  if label.all (·.toNat < 0x80) then label else "xn--".toList ++ Punycode.encode label

/-- The host that a name stands for where names are looked up: an address or a name in small
letters. -/
def lookedUpHost? (cs : List Char) : Option (List Char) :=
  match cs with
  | '[' :: rest =>
    if rest.getLast? = some ']' then (address6? rest.dropLast).map address6Text else none
  | cs =>
    let decoded := (Text.Utf8.lossy (percentDecode cs)).toList
    let name := List.intercalate ['.'] ((splitAt '.' decoded).map asciiLabel)
    if name.isEmpty ∨ name.any (fun c => isForbidden c || isControl c || c = '%') then none
    else if endsInNumber name then (address4? name).map address4Text
    else some name

/-- The host of an address that is not looked up. -/
def opaqueHost? (cs : List Char) : Option (List Char) :=
  match cs with
  | '[' :: rest =>
    if rest.getLast? = some ']' then (address6? rest.dropLast).map address6Text else none
  | cs => if cs.any isForbidden then none else some (percentEncode isControl cs)

end ContractConversion.Url
