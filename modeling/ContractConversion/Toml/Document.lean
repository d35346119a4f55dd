/-!
# TOML documents

A document is a table. It is built from statements: headers, headers of table arrays, and pairs of a
key and a value. A key may be a path. A header opens a table that no other header and no dotted key
defines; a pair goes into the table of the last header, and no key is defined twice. A table that a
dotted key defines takes further keys only from dotted keys.
-/

namespace ContractConversion.Toml

/-- A value of a document. A float and a time are kept only as such. -/
inductive Value where
  | str (s : String)
  | int (n : Int)
  | float
  | bool (b : Bool)
  | time
  | arr (items : List Value)
  | table (entries : List (String × Value))
  deriving Repr, Inhabited

/-- A statement of a document. -/
inductive Statement where
  | header (path : List String)
  | arrayHeader (path : List String)
  | pair (path : List String) (value : Value)
  deriving Repr

/-- What defines a table: a longer header, a header of its own, or a dotted key. -/
inductive TableOrigin where
  | implied
  | header
  | dotted
  deriving DecidableEq, Repr

/-- A part of a document under construction. -/
inductive Node where
  | value (v : Value)
  | table (origin : TableOrigin) (entries : List (String × Node))
  /-- An array of tables, the last one first. -/
  | tables (elements : List (List (String × Node)))
  deriving Inhabited

namespace Node

/-- The entries of a table under construction. -/
abbrev Entries : Type := List (String × Node)

/-- Puts a node in the place of the one of its key, or else at the end. -/
def put (key : String) (n : Node) : Entries → Entries
  | [] => [(key, n)]
  | (k, m) :: rest => if k = key then (k, n) :: rest else (k, m) :: put key n rest

/-- Changes the entries of the table that a header's key leads into. -/
def descend (key : String) (change : Entries → Option Entries) (entries : Entries) :
    Option Entries :=
  match entries.lookup key with
  | none => (change []).map fun inner => put key (.table .implied inner) entries
  | some (.table origin inner) =>
    (change inner).map fun inner => put key (.table origin inner) entries
  | some (.tables (last :: before)) =>
    (change last).map fun last => put key (.tables (last :: before)) entries
  | some _ => none

/-- Opens the table of a header. -/
def openTable : List String → Entries → Option Entries
  | [], _ => none
  | [key], entries =>
    match entries.lookup key with
    | none => some (put key (.table .header []) entries)
    | some (.table .implied inner) => some (put key (.table .header inner) entries)
    | some _ => none
  | key :: path, entries => descend key (openTable path) entries

/-- Adds a table to the array of a header. -/
def openElement : List String → Entries → Option Entries
  | [], _ => none
  | [key], entries =>
    match entries.lookup key with
    | none => some (put key (.tables [[]]) entries)
    | some (.tables elements) => some (put key (.tables ([] :: elements)) entries)
    | some _ => none
  | key :: path, entries => descend key (openElement path) entries

/-- Defines a key, which may be dotted. -/
def define (v : Value) : List String → Entries → Option Entries
  | [], _ => none
  | [key], entries =>
    match entries.lookup key with
    | none => some (put key (.value v) entries)
    | some _ => none
  | key :: path, entries =>
    match entries.lookup key with
    | none => (define v path []).map fun inner => put key (.table .dotted inner) entries
    | some (.table .dotted inner) =>
      (define v path inner).map fun inner => put key (.table .dotted inner) entries
    | some _ => none

/-- Changes the entries of the table that a header has opened. -/
def inside (change : Entries → Option Entries) : List String → Entries → Option Entries
  | [], entries => change entries
  | key :: path, entries => descend key (inside change path) entries

mutual

/-- The value of a node. -/
def toValue : Node → Value
  | .value v => v
  | .table _ entries => .table (toEntries entries)
  | .tables elements => .arr (toElements elements).reverse

/-- The values of entries. -/
def toEntries : List (String × Node) → List (String × Value)
  | [] => []
  | (key, n) :: rest => (key, toValue n) :: toEntries rest

/-- The values of the tables of an array. -/
def toElements : List (List (String × Node)) → List Value
  | [] => []
  | entries :: rest => .table (toEntries entries) :: toElements rest

end

end Node

/-- Takes in statements; the path is that of the last header. -/
def buildFrom (path : List String) (entries : Node.Entries) :
    List Statement → Option Node.Entries
  | [] => some entries
  | .header next :: rest => do buildFrom next (← Node.openTable next entries) rest
  | .arrayHeader next :: rest => do buildFrom next (← Node.openElement next entries) rest
  | .pair key v :: rest => do
    buildFrom path (← Node.inside (Node.define v key) path entries) rest

/-- The table that statements define, if they define one. -/
def build (statements : List Statement) : Option (List (String × Value)) :=
  (buildFrom [] [] statements).map Node.toEntries

end ContractConversion.Toml
