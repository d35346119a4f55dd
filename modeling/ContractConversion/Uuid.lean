import ContractConversion.Text.Digits

/-!
# Session identifiers

An identifier has 128 bits. It is written in lower-case hexadecimal digits, in groups of 8, 4, 4, 4
and 12. It is read from this form in either case, from it between braces or behind `urn:uuid:`, and
from the digits without hyphens.
-/

namespace ContractConversion

/-- A 128-bit identifier, as its 32 hexadecimal digits. -/
structure Uuid where
  digits : List (Fin 16)
  length_digits : digits.length = 32
  deriving DecidableEq, Repr

namespace Uuid

/-- Why a text is no identifier. -/
inductive ParseFault where
  | character (c : Char) (index : Nat)
  | length (bytes : Nat)
  | groupCount (count : Nat)
  | groupLength (group expected found : Nat)
  deriving DecidableEq, Repr

namespace ParseFault

/-- The wording of the fault. -/
def message : ParseFault → String
  | character c index =>
    "invalid character: found `" ++ c.toString ++ "` at " ++ toString index
  | length bytes => "invalid length: found " ++ toString bytes
  | groupCount count => "invalid group count: expected 5, found " ++ toString count
  | groupLength group expected found =>
    "invalid group length in group " ++ toString group ++ ": expected " ++ toString expected ++
      ", found " ++ toString found

end ParseFault

/-- The sizes of the groups. -/
def groups : List Nat := [8, 4, 4, 4, 12]

/-- A list in pieces of the given sizes. -/
def cut {α : Type} : List Nat → List α → List (List α)
  | [], _ => []
  | n :: sizes, xs => xs.take n :: cut sizes (xs.drop n)

/-- The digits without hyphens. -/
def simple (u : Uuid) : List Char :=
  u.digits.map fun d => Nat.digitChar d.val

/-- The written form. -/
def format (u : Uuid) : String :=
  "-".intercalate ((cut groups u.simple).map String.ofList)

/-- The identifier of 32 digits. -/
def ofDigits? (cs : List Char) : Option Uuid :=
  match cs.mapM Text.hexValue? with
  | some digits => if h : digits.length = 32 then some ⟨digits, h⟩ else none
  | none => none

/-- The identifier of five groups of digits with hyphens between them. -/
def ofGroups? (cs : List Char) : Option Uuid :=
  let pieces := cs.splitOn '-'
  if pieces.map List.length = groups then ofDigits? pieces.flatten else none

/-- The mark in front of an identifier that is a name. -/
def urn : List Char :=
  ['u', 'r', 'n', ':', 'u', 'u', 'i', 'd', ':']

/-- What a written form has around its digits: the text inside, and the number of characters in
front of it. -/
def unwrap (cs : List Char) : List Char × Nat :=
  if urn.isPrefixOf cs then (cs.drop urn.length, urn.length)
  else
    match cs with
    | '\x7b' :: rest => if rest.getLast? = some '\x7d' then (rest.dropLast, 1) else (cs, 0)
    | cs => (cs, 0)

/-- The first character that belongs in no identifier, with its byte index. -/
def badCharacter? : Nat → List Char → Option (Char × Nat)
  | _, [] => none
  | index, c :: rest =>
    if c = '-' ∨ (Text.hexValue? c).isSome then badCharacter? (index + c.utf8Size) rest
    else some (c, index)

/-- Why a text that no form fits is no identifier. -/
def fault (cs : List Char) : ParseFault :=
  let (inner, before) := unwrap cs
  match badCharacter? before inner with
  | some (c, index) => .character c index
  | none =>
    let pieces := inner.splitOn '-'
    if pieces.length = 1 then .length cs.length
    else if pieces.length ≠ 5 then .groupCount pieces.length
    else
      let lengths := (List.range 5).zip ((pieces.map List.length).zip groups)
      match lengths.find? fun (_, n, m) => n ≠ m with
      | some (group, found, expected) => .groupLength group expected found
      | none => .length cs.length

/-- Reads an identifier in any of its forms. -/
def parse (s : String) : Except ParseFault Uuid :=
  let cs := s.toList
  match ofDigits? cs with
  | some u => .ok u
  | none =>
    match ofGroups? (unwrap cs).1 with
    | some u => .ok u
    | none => .error (fault cs)

/-- Reads an identifier, if the text is one. -/
def parse? (s : String) : Option Uuid :=
  (parse s).toOption

end Uuid

end ContractConversion
