import ContractConversion.Text.Blank
import ContractConversion.Text.Utf8

/-!
# Environments and environment files

A file can supply variables that the environment lacks, one assignment after the other. Values may
be quoted, in single quotes as they are, otherwise with escapes and with the values of other
variables; quoted values may go over several lines. What is already set stays, and the first line
that cannot be read ends the file.
-/

namespace ContractConversion

/-- The values of variables. -/
abbrev Environment : Type := List (String × String)

namespace EnvironmentFile

/-! ## Entries -/

/-- What stands before a character of an entry. -/
inductive Place where
  | complete
  | blank
  | escape
  | weak
  | weakEscape
  | strong
  | strongEscape
  deriving DecidableEq, Repr

/-- The place after a character; none if a comment begins with it. -/
def Place.after (c : Char) : Place → Option Place
  | complete =>
    some (if Text.isBlank c && c ≠ '\n' && c ≠ '\r' then blank
      else if c = '\\' then escape
      else if c = '"' then weak
      else if c = '\'' then strong
      else complete)
  | blank =>
    if c = '#' then none
    else some (if c = '\\' then escape else if c = '"' then weak
      else if c = '\'' then strong else complete)
  | escape => some complete
  | weak => some (if c = '\\' then weakEscape else if c = '"' then complete else weak)
  | weakEscape => some weak
  | strong => some (if c = '\\' then strongEscape else if c = '\'' then complete else strong)
  | strongEscape => some strong

/-- A line that holds nothing but a comment. -/
def isComment (line : List Char) : Bool :=
  (line.dropWhile Text.isBlank).head? = some '#'

/-- The place at the end of a line, and the characters of the line without a comment. -/
def endOf (place : Place) (kept : List Char) : List Char → List Char × Option Place
  | [] => (kept.reverse, some place)
  | c :: rest =>
    match place.after c with
    | some place => endOf place (c :: kept) rest
    | none => (kept.reverse, none)

/-- Cuts a text into lines, each with its line break; `line` is the open one, backwards. -/
def physicalLines (line : List Char) : List Char → List (List Char)
  | [] => if line.isEmpty then [] else [line.reverse]
  | '\n' :: rest => ('\n' :: line).reverse :: physicalLines [] rest
  | c :: rest => physicalLines (c :: line) rest

/-- The entries of lines; `before` is what an open entry has so far. None stands for an entry that
the file does not close. -/
def entries (place : Place) (before : List Char) : List (List Char) → List (Option (List Char))
  | [] => if place = .complete then [] else [none]
  | line :: rest =>
    if isComment (before ++ line) then entries .complete [] rest
    else
      match endOf place [] line with
      | (kept, some .complete) => some (before ++ kept) :: entries .complete [] rest
      | (kept, none) => some (before ++ kept) :: entries .complete [] rest
      | (kept, some place) => entries place (before ++ kept) rest

/-! ## Values -/

/-- A variable whose value goes into another: its name so far, backwards, and whether it stands in
braces. -/
structure Reference where
  braced : Bool := false
  name : List Char := []
  deriving DecidableEq, Repr

/-- A value on its way, backwards. -/
structure Draft where
  out : List Char := []
  strong : Bool := false
  weak : Bool := false
  escaped : Bool := false
  /-- Only blanks and a comment may follow. -/
  ending : Bool := false
  reference : Option Reference := none
  deriving DecidableEq, Repr

/-- The characters of names in references. -/
def isNamed (c : Char) : Bool :=
  c.isAlphanum || (0xAA ≤ c.toNat && !Text.isBlank c)

/-- Puts in the value of a variable; one that is not set has none. -/
def Draft.refer (environment : Environment) (d : Draft) (name : List Char) : Draft :=
  let value := (environment.lookup (String.ofList name.reverse)).getD ""
  { d with out := value.toList.reverse ++ d.out, reference := none }

/-- Reads a character of a value; none if it may not stand there. -/
def Draft.take (environment : Environment) (d : Draft) (c : Char) : Option Draft :=
  if d.ending then if c = ' ' ∨ c = '\t' then some d else none
  else if d.escaped then
    if c = '\\' ∨ c = '\'' ∨ c = '"' ∨ c = '$' ∨ c = ' ' then
      some { d with out := c :: d.out, escaped := false }
    else if c = 'n' then some { d with out := '\n' :: d.out, escaped := false }
    else none
  else if d.strong then
    some (if c = '\'' then { d with strong := false } else { d with out := c :: d.out })
  else
    match d.reference with
    | some r =>
      if isNamed c then some { d with reference := some { r with name := c :: r.name } }
      else if r.braced then
        if c.toNat = 0x7D then some (d.refer environment r.name)
        else some { d with reference := some { r with name := c :: r.name } }
      else if c.toNat = 0x7B ∧ r.name.isEmpty then
        some { d with reference := some { r with braced := true } }
      else
        let d := d.refer environment r.name
        some (if c = '$' then { d with reference := some {} } else { d with out := c :: d.out })
    | none =>
      if c = '$' then some { d with reference := some {} }
      else if d.weak then
        some (if c = '"' then { d with weak := false }
          else if c = '\\' then { d with escaped := true }
          else { d with out := c :: d.out })
      else if c = '\'' then some { d with strong := true }
      else if c = '"' then some { d with weak := true }
      else if c = '\\' then some { d with escaped := true }
      else if c = ' ' ∨ c = '\t' then some { d with ending := true }
      else some { d with out := c :: d.out }

/-- The value of a draft that is complete. -/
def Draft.finish? (environment : Environment) (d : Draft) : Option String :=
  if d.strong ∨ d.weak ∨ d.reference.any (·.braced) then none
  else
    let d := match d.reference with
      | some r => d.refer environment r.name
      | none => d
    some (String.ofList d.out.reverse)

/-- Reads a value. -/
def value? (environment : Environment) (d : Draft) : List Char → Option String
  | [] => d.finish? environment
  | c :: rest =>
    if d.ending ∧ c = '#' then d.finish? environment
    else
      match d.take environment c with
      | some d => value? environment d rest
      | none => none

/-! ## Assignments -/

/-- The name at the front, and what follows it and the blanks behind it. -/
def name? (cs : List Char) : Option (String × List Char) :=
  let name := cs.takeWhile fun c => c.isAlphanum || c = '_' || c = '.'
  match name with
  | [] => none
  | first :: _ =>
    if first.isAlpha ∨ first = '_' then
      some (String.ofList name, (cs.drop name.length).dropWhile Text.isBlank)
    else none

/-- The name that an assignment sets, and what follows the equals sign; the word `export` may stand
before the name. -/
def target? (cs : List Char) : Option (String × List Char) := do
  let (name, rest) ← name? cs
  match rest with
  | '=' :: rest => some (name, rest)
  | rest =>
    if name = "export" then
      match ← name? rest with
      | (name, '=' :: rest) => some (name, rest)
      | _ => none
    else none

/-- What an entry comes to. -/
inductive Reading where
  | nothing
  | assignment (name value : String)
  | unreadable
  deriving DecidableEq, Repr

/-- Reads an entry. -/
def read (environment : Environment) (entry : List Char) : Reading :=
  match Text.trimChars entry with
  | [] | '#' :: _ => .nothing
  | cs =>
    match target? cs with
    | none => .unreadable
    | some (name, rest) =>
      match rest.dropWhile Text.isBlank with
      | [] | '#' :: _ => .assignment name ""
      | cs =>
        match value? environment {} cs with
        | some value => .assignment name value
        | none => .unreadable

/-- The environment with the variables of entries that it lacks, up to one that cannot be read. -/
def extend (environment : Environment) : List (Option (List Char)) → Environment
  | [] | none :: _ => environment
  | some entry :: rest =>
    match read environment entry with
    | .nothing => extend environment rest
    | .unreadable => environment
    | .assignment name value =>
      extend (if (environment.lookup name).isSome then environment
        else environment ++ [(name, value)]) rest

/-- The text of a file up to the first line that is not text. -/
def readable (content : List UInt8) : List Char :=
  let symbols := Text.Utf8.symbols content
  let chars := symbols.filterMap fun
    | .char c => some c
    | .stray _ => none
  let whole := (symbols.takeWhile fun
    | .char _ => true
    | .stray _ => false).length
  let chars := match chars with
    | '\uFEFF' :: rest => if whole = chars.length then rest else chars
    | _ => chars
  if whole = symbols.length then chars
  else ((chars.take whole).reverse.dropWhile (· ≠ '\n')).reverse

/-- The environment with the variables of a file that it lacks. -/
def load (environment : Environment) (content : List UInt8) : Environment :=
  extend environment (entries .complete [] (physicalLines [] (readable content)))

end EnvironmentFile

end ContractConversion
