import ContractConversion.Json.Lexeme

/-!
# The tree of a text

A text is read into a tree whatever its faults: a fault becomes a part of the tree at the place
where it stands. A reader of some record walks the tree from left to right and stops at the first
fault it meets, be it one of the text or one of the data. What it meets depends on what it looks
for: behind an item it may look for a further item, for the end of the list, or only for a way past
the list. So the end of a list that has no closing bracket gives a fault for each.

A tree of a value, with no text behind it, has no faults.
-/

namespace ContractConversion.Json

open Text (Symbol)

/-- How a list of items or members ends. -/
inductive Ending where
  /-- By its bracket; the offset behind it. -/
  | closed (stop : Nat)
  /-- Without it: the faults of looking for one more, for the bracket, and for a way past. -/
  | cut (next close skip : Fault)

/-- How deep containers of a text may stand inside one another: the next one is refused. -/
def depthLimit : Nat := 127

mutual

/-- A value of a text, with the offsets where it starts and stops. -/
inductive Tree where
  | null (start stop : Nat)
  | bool (b : Bool) (start stop : Nat)
  | num (read : Except Fault Number) (skip : Option Fault) (start stop : Nat)
  | str (read : Except Fault String) (skip : Option Fault) (start stop : Nat)
  | seq (tooDeep : Bool) (start : Nat) (items : Items)
  | map (tooDeep : Bool) (start : Nat) (members : Members)
  /-- No value stands here, or a broken word. -/
  | none (fault : Fault) (start : Nat)

/-- The items of an array. -/
inductive Items where
  | nil (ending : Ending)
  | cons (head : Tree) (tail : Items)

/-- The members of an object; `behindKey` is the offset of what follows the key. -/
inductive Members where
  | nil (ending : Ending)
  | cons (key : Except Fault String) (skipKey : Option Fault) (behindKey : Nat) (value : Tree)
      (tail : Members)

end

namespace Tree

/-- The offset of the first byte. -/
def start : Tree → Nat
  | null s _ | bool _ s _ | num _ _ s _ | str _ _ s _ | seq _ s _ | map _ s _ | none _ s => s

mutual

/-- The value at the front of the lexemes, inside `depth` containers, and the lexemes behind it. -/
def ofLexemes : Nat → Nat → List Lexeme → Tree × List Lexeme
  | 0, _, ts => (none (.syntaxAt .endInValue 0) 0, ts)
  | _, _, [] => (none (.syntaxAt .endInValue 0) 0, [])
  | fuel + 1, depth, l :: ts =>
    match l.token with
    | .null => (null l.start l.stop, ts)
    | .bool b => (bool b l.start l.stop, ts)
    | .num read skip => (num read skip l.start l.stop, ts)
    | .str read skip => (str read skip l.start l.stop, ts)
    | .badWord fault => (none fault l.start, ts)
    | .finish => (none (.syntaxAt .endInValue l.start) l.start, l :: ts)
    | .sign .bracketOpen =>
      let (items, ts) := itemsOf fuel (depth + 1) true ts
      (seq (depthLimit ≤ depth) l.start items, ts)
    | .sign .braceOpen =>
      let (members, ts) := membersOf fuel (depth + 1) true ts
      (map (depthLimit ≤ depth) l.start members, ts)
    | .sign _ | .other => (none (.syntaxAt .expectedValue (l.start + 1)) l.start, l :: ts)

/-- The items of an array from behind its bracket on, or from behind one of its items on. -/
def itemsOf : Nat → Nat → Bool → List Lexeme → Items × List Lexeme
  | 0, _, _, ts => (.nil (.closed 0), ts)
  | _, _, _, [] => (.nil (.closed 0), [])
  | fuel + 1, depth, first, l :: ts =>
    match l.token with
    | .sign .bracketClose => (.nil (.closed l.stop), ts)
    | .finish =>
      let fault := Fault.syntaxAt .endInList l.start
      (.nil (.cut fault fault fault), l :: ts)
    | _ =>
      if first then
        let (head, rest) := ofLexemes fuel depth (l :: ts)
        let (tail, rest) := itemsOf fuel depth false rest
        (.cons head tail, rest)
      else
        match l.token, ts with
        | .sign .comma, m :: ts =>
          match m.token with
          | .sign .bracketClose =>
            let fault := Fault.syntaxAt .trailingComma (m.start + 1)
            (.nil (.cut fault fault (.syntaxAt .expectedValue (m.start + 1))), m :: ts)
          | .finish =>
            let fault := Fault.syntaxAt .endInValue m.start
            (.nil (.cut fault (.syntaxAt .trailingCharacters m.start) fault), m :: ts)
          | _ =>
            let (head, rest) := ofLexemes fuel depth (m :: ts)
            let (tail, rest) := itemsOf fuel depth false rest
            (.cons head tail, rest)
        | _, ts =>
          let fault := Fault.syntaxAt .expectedCommaOrBracket (l.start + 1)
          (.nil (.cut fault (.syntaxAt .trailingCharacters (l.start + 1)) fault), l :: ts)

/-- The members of an object from behind its brace on, or from behind one of its members on. -/
def membersOf : Nat → Nat → Bool → List Lexeme → Members × List Lexeme
  | 0, _, _, ts => (.nil (.closed 0), ts)
  | _, _, _, [] => (.nil (.closed 0), [])
  | fuel + 1, depth, first, l :: ts =>
    match l.token, first with
    | .sign .braceClose, _ => (.nil (.closed l.stop), ts)
    | .finish, _ =>
      let fault := Fault.syntaxAt .endInObject l.start
      (.nil (.cut fault fault fault), l :: ts)
    | .str read skip, true => memberOf fuel depth read skip ts
    | _, true =>
      let fault := Fault.syntaxAt .keyNotString (l.start + 1)
      (.nil (.cut fault (.syntaxAt .trailingCharacters (l.start + 1)) fault), l :: ts)
    | .sign .comma, false =>
      let close := Fault.syntaxAt .trailingComma (l.start + 1)
      match ts with
      | [] => (.nil (.cut close close close), [])
      | m :: ts =>
        match m.token with
        | .str read skip => memberOf fuel depth read skip ts
        | .finish =>
          (.nil (.cut (.syntaxAt .endInValue m.start) close (.syntaxAt .endInObject m.start)),
            m :: ts)
        | .sign .braceClose =>
          (.nil (.cut (.syntaxAt .trailingComma (m.start + 1)) close
            (.syntaxAt .keyNotString (m.start + 1))), m :: ts)
        | _ =>
          let fault := Fault.syntaxAt .keyNotString (m.start + 1)
          (.nil (.cut fault close fault), m :: ts)
    | _, false =>
      let fault := Fault.syntaxAt .expectedCommaOrBrace (l.start + 1)
      (.nil (.cut fault (.syntaxAt .trailingCharacters (l.start + 1)) fault), l :: ts)

/-- A member from behind its key on, and the members after it. -/
def memberOf : Nat → Nat → Except Fault String → Option Fault → List Lexeme →
    Members × List Lexeme
  | 0, _, _, _, ts => (.nil (.closed 0), ts)
  | _, _, _, _, [] => (.nil (.closed 0), [])
  | fuel + 1, depth, key, skipKey, l :: ts =>
    match l.token with
    | .sign .colon =>
      let (value, rest) := ofLexemes fuel depth ts
      let (tail, rest) := membersOf fuel depth false rest
      (.cons key skipKey l.start value tail, rest)
    | .finish =>
      let fault := Fault.syntaxAt .endInObject l.start
      (.cons key skipKey l.start (none fault l.start) (.nil (.cut fault fault fault)), l :: ts)
    | .sign .braceClose =>
      let fault := Fault.syntaxAt .expectedColon (l.start + 1)
      (.cons key skipKey l.stop (none fault l.start) (.nil (.cut fault fault fault)), l :: ts)
    | _ =>
      let fault := Fault.syntaxAt .expectedColon (l.start + 1)
      (.cons key skipKey l.start (none fault l.start) (.nil (.cut fault fault fault)), l :: ts)

end

mutual

/-- The tree of a value. -/
def ofValue : Value → Tree
  | .null => null 0 0
  | .bool b => bool b 0 0
  | .num n => num (.ok n) .none 0 0
  | .str s => str (.ok s) .none 0 0
  | .arr items => seq false 0 (ofItems items)
  | .obj members => map false 0 (ofMembers members)

/-- The trees of items. -/
def ofItems : List Value → Items
  | [] => .nil (.closed 0)
  | v :: rest => .cons (ofValue v) (ofItems rest)

/-- The trees of members. -/
def ofMembers : List (String × Value) → Members
  | [] => .nil (.closed 0)
  | (k, v) :: rest => .cons (.ok k) .none 0 (ofValue v) (ofMembers rest)

end

/-- The fault of a container that stands too deep in its text. -/
def refuse (tooDeep : Bool) (start : Nat) : Except Fault Unit :=
  if tooDeep then .error (.syntaxAt .tooDeep (start + 1)) else .ok ()

mutual

/-- Reads any value, its objects in normal form. -/
def read : Tree → Except Fault Value
  | null _ _ => .ok .null
  | bool b _ _ => .ok (.bool b)
  | num n _ _ _ => n.map .num
  | str s _ _ _ => s.map .str
  | seq tooDeep start items => do
    refuse tooDeep start
    return .arr (← readItems items)
  | map tooDeep start members => do
    refuse tooDeep start
    return .ofMembers (← readMembers members)
  | none fault _ => .error fault

/-- Reads all items. -/
def readItems : Items → Except Fault (List Value)
  | .nil (.closed _) => .ok []
  | .nil (.cut next _ _) => .error next
  | .cons head tail => do
    let v ← read head
    return v :: (← readItems tail)

/-- Reads all members. -/
def readMembers : Members → Except Fault (List (String × Value))
  | .nil (.closed _) => .ok []
  | .nil (.cut next _ _) => .error next
  | .cons key _ _ value tail => do
    let k ← key
    let v ← read value
    return (k, v) :: (← readMembers tail)

end

/-- Passes over a token that may be unreadable. -/
def pass : Option Fault → Except Fault Unit
  | some fault => .error fault
  | Option.none => .ok ()

mutual

/-- Passes over a value, however deep. -/
def skip : Tree → Except Fault Unit
  | null _ _ => .ok ()
  | bool _ _ _ => .ok ()
  | num _ skip _ _ => pass skip
  | str _ skip _ _ => pass skip
  | seq _ _ items => skipItems items
  | map _ _ members => skipMembers members
  | none fault _ => .error fault

/-- Passes over all items. -/
def skipItems : Items → Except Fault Unit
  | .nil (.closed _) => .ok ()
  | .nil (.cut _ _ skip) => .error skip
  | .cons head tail => do
    skip head
    skipItems tail

/-- Passes over all members. -/
def skipMembers : Members → Except Fault Unit
  | .nil (.closed _) => .ok ()
  | .nil (.cut _ _ skip) => .error skip
  | .cons _ skipKey _ value tail => do
    pass skipKey
    skip value
    skipMembers tail

end

/-- The fault of a reader that wanted something else: a fault of the value itself comes first. The
fault of a scalar names its end, that of a container its start. -/
def mismatch (expected : String) : Tree → Fault
  | null _ stop => .dataAt (.invalidType .null expected) stop
  | bool b _ stop => .dataAt (.invalidType (.bool b) expected) stop
  | num (.ok n) _ _ stop => .dataAt (.invalidType (.num n) expected) stop
  | num (.error fault) _ _ _ => fault
  | str (.ok s) _ _ stop => .dataAt (.invalidType (.str s) expected) stop
  | str (.error fault) _ _ _ => fault
  | seq _ start _ => .dataAt (.invalidType .seq expected) start
  | map _ start _ => .dataAt (.invalidType .map expected) start
  | none fault _ => fault

end Tree

/-- A text as JSON: the tree of its value, and the offset of what stands behind it. -/
structure Document where
  root : Tree
  trailing : Option Nat

namespace Document

/-- The document of a text. -/
def parse (input : List Symbol) : Document :=
  let ts := lexemes input
  let (root, rest) := Tree.ofLexemes (2 * ts.length + 2) 0 ts
  match rest with
  | [] => ⟨root, none⟩
  | l :: _ =>
    match l.token with
    | .finish => ⟨root, none⟩
    | _ => ⟨root, some (l.start + 1)⟩

/-- The fault of a text that goes on behind its value. -/
def finish (d : Document) : Except Fault Unit :=
  match d.trailing with
  | none => .ok ()
  | some offset => .error (.syntaxAt .trailingCharacters offset)

/-- Reads the value with the given reader; nothing may stand behind it. -/
def readWith {α : Type} (reader : Tree → Except Fault α) (d : Document) : Except Fault α := do
  let a ← reader d.root
  d.finish
  return a

end Document

/-- Reads a text as any JSON value. -/
def Value.parse (input : List Symbol) : Except Fault Value :=
  (Document.parse input).readWith Tree.read

end ContractConversion.Json
