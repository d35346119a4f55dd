import ContractConversion.Json.Codec

/-!
# Records

A record is written as an object, its fields in order; an optional field that is absent is left out.
It is read from an object, whose members stand in any order and of which those with other names are
passed over, or from an array of its fields in order. A field that is missing takes its default if
it has one. A record type is described once, by the tuple of its fields, and the description gives
both directions.
-/

namespace ContractConversion.Json

/-- One field of a record: `absent` is the value of a field that is left out. -/
structure Field (α : Type) where
  name : String
  write : α → Option Value
  read : Decoder α
  absent : Option α

namespace Field

/-- A field that has to be there. -/
def required {α : Type} (name : String) (c : Codec α) : Field α :=
  ⟨name, fun a => some (c.encode a), c.decode, none⟩

/-- A field with a default. -/
def defaulted {α : Type} (name : String) (c : Codec α) (default : α) : Field α :=
  ⟨name, fun a => some (c.encode a), c.decode, some default⟩

/-- A field that is left out when it has no value; null reads as no value. -/
def optional {α : Type} (name : String) (c : Codec α) : Field (Option α) :=
  ⟨name, fun a => a.map c.encode, (Codec.nullable c).decode, some none⟩

/-- A field that is written as null when it has no value. -/
def nullable {α : Type} (name : String) (c : Codec α) : Field (Option α) :=
  ⟨name, fun a => some ((Codec.nullable c).encode a), (Codec.nullable c).decode, some none⟩

end Field

/-- The values of the fields of a record. -/
@[reducible] def Tuple : List Type → Type
  | [] => Unit
  | α :: rest => α × Tuple rest

/-- The descriptions of the fields of a record. -/
@[reducible] def Fields : List Type → Type
  | [] => Unit
  | α :: rest => Field α × Fields rest

/-- The fields found so far. -/
@[reducible] def Slots : List Type → Type
  | [] => Unit
  | α :: rest => Option α × Slots rest

namespace Fields

/-- No field found yet. -/
def empty : (types : List Type) → Slots types
  | [] => ()
  | _ :: rest => (none, empty rest)

/-- The members of a record, in the order of its fields. -/
def encode : {types : List Type} → Fields types → Tuple types → List (String × Value)
  | [], _, _ => []
  | _ :: _, (f, fields), (a, tuple) =>
    match f.write a with
    | some v => (f.name, v) :: encode fields tuple
    | none => encode fields tuple

/-- The names of the fields. -/
def names : {types : List Type} → Fields types → List String
  | [], _ => []
  | _ :: _, (f, fields) => f.name :: names fields

/-- Reads the value of the member `key` into its slot; `none` if no field has this name. The offset
behind the key is named if the field is there already. -/
def fill (origin : Origin) (key : String) (behind : Nat) (value : Tree) :
    {types : List Type} → Fields types → Slots types → Except Fault (Option (Slots types))
  | [], _, _ => .ok none
  | _ :: _, (f, fields), (slot, slots) =>
    if f.name = key then
      match slot with
      | some _ => .error (.dataAt (.duplicateField key) behind)
      | none => do
        let a ← f.read origin value
        return some (some a, slots)
    else do
      match ← fill origin key behind value fields slots with
      | some slots => return some (slot, slots)
      | none => return none

/-- Reads the members of an object. The last component is the offset behind the object. -/
def decodeMembers (origin : Origin) {types : List Type} (fields : Fields types) :
    Slots types → Members → Except Fault (Slots types × Nat)
  | slots, .nil (.closed stop) => .ok (slots, stop)
  | _, .nil (.cut next _ _) => .error next
  | slots, .cons key _ behind value tail => do
    let name ← key
    match ← fill origin name behind value fields slots with
    | some slots => decodeMembers origin fields slots tail
    | none =>
      value.skip
      decodeMembers origin fields slots tail

/-- The values of the fields once all members are read; `stop` is named if one is missing. -/
def complete (stop : Nat) : {types : List Type} → Fields types → Slots types →
    Except Fault (Tuple types)
  | [], _, _ => .ok ()
  | _ :: _, (f, fields), (slot, slots) => do
    match slot.or f.absent with
    | some a => return (a, ← complete stop fields slots)
    | none => .error (.dataAt (.missingField f.name) stop)

/-- The fault of an array that goes on behind the last field. Settings may hold more. -/
def surplus (origin : Origin) (count : Nat) : Items → Except Fault Unit
  | .nil (.closed _) => .ok ()
  | .nil (.cut _ close _) => .error close
  | .cons head tail =>
    match origin with
    | .text => .error (.syntaxAt .trailingCharacters (head.start + 1))
    | .buffered =>
      .error (.dataAt (.invalidLength (count + remaining (.cons head tail))
        (toString count ++ (if count = 1 then " element" else " elements") ++ " in sequence")) 0)
    | .value =>
      .error (.dataAt (.invalidLength (count + remaining (.cons head tail))
        "fewer elements in array") 0)
    | .settings => .ok ()
where
  /-- The number of items. -/
  remaining : Items → Nat
    | .nil _ => 0
    | .cons _ tail => remaining tail + 1

/-- Reads the fields from the items of an array, of which `index` are read; `expected` describes the
whole array. -/
def decodeItems (origin : Origin) (expected : String) : {types : List Type} → Fields types →
    Nat → Items → Except Fault (Tuple types)
  | [], _, index, items => do
    surplus origin index items
    return ()
  | _ :: _, (f, fields), index, items =>
    match items with
    | .cons head tail => do
      let a ← f.read origin head
      return (a, ← decodeItems origin expected fields (index + 1) tail)
    | .nil (.cut next _ _) => .error next
    | .nil (.closed stop) =>
      match f.absent with
      | some a => do return (a, ← decodeItems origin expected fields (index + 1) items)
      | none => .error (.dataAt (.invalidLength index expected) stop)

/-- Reads a record from an object. -/
def decodeObject (origin : Origin) {types : List Type} (fields : Fields types) (tooDeep : Bool)
    (start : Nat) (members : Members) : Except Fault (Tuple types) := do
  Codec.enter origin tooDeep start
  let (slots, stop) ← decodeMembers origin fields (empty types) members
  complete stop fields slots

/-- Reads a record from an object only; `kind` names it in messages. -/
def decodeStrict (kind : String) {types : List Type} (fields : Fields types) :
    Decoder (Tuple types) := fun origin t =>
  match t with
  | .map tooDeep start members => decodeObject origin fields tooDeep start members
  | t => .error (t.mismatch kind)

/-- Reads a record from an object or an array. -/
def decode (name : String) {types : List Type} (fields : Fields types) : Decoder (Tuple types) :=
  fun origin t =>
    let kind := "struct " ++ name
    match t with
    | .map tooDeep start members => decodeObject origin fields tooDeep start members
    | .seq tooDeep start items => do
      Codec.enter origin tooDeep start
      let count := types.length
      decodeItems origin
        (kind ++ " with " ++ toString count ++ (if count = 1 then " element" else " elements"))
        fields 0 items
    | t => .error (t.mismatch kind)

end Fields

/-- The codec of a record type: the types of its fields, its name, its fields, and the tuple of its
values. -/
def Codec.record {α : Type} (types : List Type) (name : String) (fields : Fields types)
    (toTuple : α → Tuple types) (ofTuple : Tuple types → α) : Codec α where
  encode a := .obj (fields.encode (toTuple a))
  decode origin t := (fields.decode name origin t).map ofTuple

end ContractConversion.Json
