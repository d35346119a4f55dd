import ContractConversion.Json.Tree

/-!
# Codecs

A codec writes the values of a type as JSON and reads them from the tree of a text. A tree comes
from a text that is read on the way, from a part of a text that was set aside until its kind was
known, from a JSON value, or from a file of settings; the four differ in a few faults, and only the
first counts how deep containers stand.
-/

namespace ContractConversion.Json

/-- Where a tree comes from. -/
inductive Origin where
  | text
  | buffered
  | value
  | settings
  deriving DecidableEq, Repr

/-- Reads a value of a type from a tree. -/
abbrev Decoder (α : Type) : Type :=
  Origin → Tree → Except Fault α

/-- Writes and reads the values of a type. -/
structure Codec (α : Type) where
  encode : α → Value
  decode : Decoder α

namespace Codec

/-- Any JSON. -/
def any : Codec Value where
  encode v := v
  decode _ t := t.read

/-- A text. -/
def string : Codec String where
  encode := .str
  decode _
    | .str s _ _ _ => s
    | t => .error (t.mismatch "a string")

/-- A truth value. -/
def bool : Codec Bool where
  encode := .bool
  decode _
    | .bool b _ _ => .ok b
    | t => .error (t.mismatch "a boolean")

/-- A natural number below `2^bits`; `kind` names the type in messages. -/
def natural (bits : Nat) (kind : String) : Codec Nat where
  encode := .nat
  decode _
    | .num (.ok (.int n)) _ _ stop =>
      if 0 ≤ n ∧ n < Nat.pow 2 bits then .ok n.toNat
      else .error (.dataAt (.invalidValue (.num (.int n)) kind) stop)
    | t => .error (t.mismatch kind)

/-- A natural number of eight bits. -/
def u8 : Codec Nat := natural 8 "u8"

/-- A natural number of sixteen bits. -/
def u16 : Codec Nat := natural 16 "u16"

/-- A natural number of 32 bits. -/
def u32 : Codec Nat := natural 32 "u32"

/-- A natural number of 64 bits. -/
def u64 : Codec Nat := natural 64 "u64"

/-- A count of 64 bits. -/
def size : Codec Nat := natural 64 "usize"

/-- A text in a written form, such as a time or an identifier; `expected` names it in messages. -/
def written {α : Type} (expected : String) (format : α → String)
    (parse : String → Except String α) : Codec α where
  encode a := .str (format a)
  decode _
    | .str (.ok s) _ _ stop =>
      match parse s with
      | .ok a => .ok a
      | .error reason => .error (.dataAt (.unreadable reason) stop)
    | t => .error (t.mismatch expected)

/-- Null or a value. -/
def nullable {α : Type} (c : Codec α) : Codec (Option α) where
  encode
    | none => .null
    | some a => c.encode a
  decode origin
    | .null _ _ => .ok none
    | t => (c.decode origin t).map some

/-- The items of an array, each by the given decoder. -/
def decodeItems {α : Type} (decode : Tree → Except Fault α) : Items → Except Fault (List α)
  | .nil (.closed _) => .ok []
  | .nil (.cut next _ _) => .error next
  | .cons head tail => do
    let a ← decode head
    return a :: (← decodeItems decode tail)

/-- A container of a text must not stand too deep. -/
def enter (origin : Origin) (tooDeep : Bool) (start : Nat) : Except Fault Unit :=
  match origin with
  | .text => Tree.refuse tooDeep start
  | _ => .ok ()

/-- An array of values of one type. -/
def list {α : Type} (c : Codec α) : Codec (List α) where
  encode xs := .arr (xs.map c.encode)
  decode origin
    | .seq tooDeep start items => do
      enter origin tooDeep start
      decodeItems (c.decode origin) items
    | t => .error (t.mismatch "a sequence")

/-- The value with a given name. -/
def pick {α : Type} (known : List (String × α)) (name : String) (offset : Nat) : Except Fault α :=
  match known.lookup name with
  | some a => .ok a
  | none => .error (.dataAt (.unknownVariant name (known.map (·.1))) offset)

/-- Nothing but null stands with a name in an object. An empty object will do in a part set aside,
and an empty container in settings. -/
def decodeUnit (origin : Origin) : Tree → Except Fault Unit
  | .null _ _ => .ok ()
  | .map false start (.nil (.closed stop)) =>
    if origin = .buffered ∨ origin = .settings then .ok ()
    else .error ((Tree.map false start (.nil (.closed stop))).mismatch "unit")
  | .seq false start (.nil (.closed stop)) =>
    if origin = .settings then .ok ()
    else .error ((Tree.seq false start (.nil (.closed stop))).mismatch "unit")
  | t => .error (t.mismatch "unit")

/-- The object form of a name: one member, with null. -/
def decodeNameObject {α : Type} (known : List (String × α)) (origin : Origin) (start : Nat) :
    Members → Except Fault α
  | .nil (.closed stop) =>
    match origin with
    | .text => .error (.syntaxAt .expectedValue stop)
    | _ => .error (.dataAt (.invalidValue .map "map with a single key") stop)
  | .nil (.cut next _ _) => .error next
  | .cons key _ behind value tail => do
    let name ← key
    match origin, tail with
    | .text, tail =>
      let a ← pick known name behind
      decodeUnit origin value
      match tail with
      | .nil (.closed _) => return a
      | .nil (.cut next _ _) =>
        if next.cause = .ill .endInObject then .error next
        else .error (.syntaxAt .expectedValue (next.offset - 1))
      | .cons _ _ _ _ _ => .error (.syntaxAt .expectedValue start)
    | _, .nil (.closed _) =>
      let a ← pick known name behind
      decodeUnit origin value
      return a
    | _, _ => .error (.dataAt (.invalidValue .map "map with a single key") start)

/-- One of a list of named values. -/
def decodeName {α : Type} (known : List (String × α)) : Decoder α := fun origin t =>
  match origin, t with
  | _, .str read _ _ stop => do
    let name ← read
    pick known name stop
  | .text, .map tooDeep start members => do
    Tree.refuse tooDeep start
    decodeNameObject known .text start members
  | .text, .none fault _ =>
    .error (if fault.cause = .ill .expectedWord then .syntaxAt .expectedValue t.start else fault)
  | .text, t => .error (.syntaxAt .expectedValue (t.start + 1))
  | origin, .map _ start members => decodeNameObject known origin start members
  | _, t => .error (t.mismatch "string or map")

/-- One of a list of named values, written by its name. -/
def named {α : Type} (known : List (String × α)) (name : α → String) : Codec α where
  encode a := .str (name a)
  decode := decodeName known

end Codec

end ContractConversion.Json
