import ContractConversion.Json.Record

/-!
# Tagged values

A value of one of several kinds is written as an object with two members: the name of its kind and
its content. A kind without content has only its name. The two members stand in any order; if the
content comes first it is set aside until the name is known. The array of name and content is read
as well. Other members are passed over, and neither of the two may stand twice.
-/

namespace ContractConversion.Json.Tagged

/-- How the content of a kind is read. -/
inductive Payload (α : Type) where
  /-- No content, or null; `kind` names it in messages. -/
  | unit (kind : String) (a : α)
  | content (read : Decoder α)

/-- Reads a content. -/
def Payload.decode {α : Type} : Payload α → Decoder α
  | .unit _ a, _, .null _ _ => .ok a
  | .unit kind _, _, t => .error (t.mismatch kind)
  | .content read, origin, t => read origin t

/-- The kinds of a tagged type: its name in messages, the names of its two members, and how each
kind is read. -/
structure Layout (α : Type) where
  name : String
  tag : String
  content : String
  kinds : List (String × Payload α)

/-- The next member that matters. -/
inductive Relevant where
  | tag (value : Tree) (behind : Nat) (tail : Members)
  | content (value : Tree) (behind : Nat) (tail : Members)
  | finished (stop : Nat)

namespace Layout

variable {α : Type}

/-- How messages name the whole. -/
def kind (layout : Layout α) : String :=
  "adjacently tagged enum " ++ layout.name

/-- Passes over members up to the next that matters. -/
def next (layout : Layout α) : Members → Except Fault Relevant
  | .nil (.closed stop) => .ok (.finished stop)
  | .nil (.cut next _ _) => .error next
  | .cons key _ behind value tail => do
    let name ← key
    if name = layout.tag then return .tag value behind tail
    else if name = layout.content then return .content value behind tail
    else
      value.skip
      layout.next tail

/-- No further name or content may follow. -/
def finish (layout : Layout α) (a : α) (members : Members) : Except Fault α := do
  match ← layout.next members with
  | .tag _ behind _ => .error (.dataAt (.duplicateField layout.tag) behind)
  | .content _ behind _ => .error (.dataAt (.duplicateField layout.content) behind)
  | .finished _ => return a

/-- Reads the object form. -/
def decodeObject (layout : Layout α) (origin : Origin) (members : Members) : Except Fault α := do
  match ← layout.next members with
  | .finished stop => .error (.dataAt (.missingField layout.tag) stop)
  | .tag name _ tail => do
    let payload ← Codec.decodeName layout.kinds origin name
    match ← layout.next tail with
    | .tag _ behind _ => .error (.dataAt (.duplicateField layout.tag) behind)
    | .content value _ tail => do
      let a ← payload.decode origin value
      layout.finish a tail
    | .finished stop =>
      match payload with
      | .unit _ a => return a
      | .content _ => .error (.dataAt (.missingField layout.content) stop)
  | .content value _ tail => do
    let _ ← value.read
    match ← layout.next tail with
    | .tag name _ tail => do
      let payload ← Codec.decodeName layout.kinds origin name
      let a ← payload.decode .buffered value
      layout.finish a tail
    | .content _ behind _ => .error (.dataAt (.duplicateField layout.content) behind)
    | .finished stop => .error (.dataAt (.missingField layout.tag) stop)

/-- Reads the array form. -/
def decodeArray (layout : Layout α) (origin : Origin) : Items → Except Fault α
  | .nil (.closed stop) => .error (.dataAt (.invalidLength 0 layout.kind) stop)
  | .nil (.cut next _ _) => .error next
  | .cons name tail => do
    let payload ← Codec.decodeName layout.kinds origin name
    match tail with
    | .nil (.closed stop) => .error (.dataAt (.invalidLength 1 layout.kind) stop)
    | .nil (.cut next _ _) => .error next
    | .cons value tail => do
      let a ← payload.decode origin value
      Fields.surplus origin 2 tail
      return a

/-- Reads a value of one of the kinds. -/
def decode (layout : Layout α) : Decoder α := fun origin t =>
  match t with
  | .map tooDeep start members => do
    Codec.enter origin tooDeep start
    layout.decodeObject origin members
  | .seq tooDeep start items => do
    Codec.enter origin tooDeep start
    layout.decodeArray origin items
  | t => .error (t.mismatch layout.kind)

end Layout

end ContractConversion.Json.Tagged
