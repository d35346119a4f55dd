/-!
# Patterns

Shell patterns and basic regular expressions are sequences of items, each of which takes one
character, or any number of characters of one kind. A pattern has to match a whole text; an
expression that may match anywhere has an item for any characters at each end.
-/

namespace ContractConversion.Script

/-- A kind of character. -/
inductive Kind where
  | exactly (c : Char)
  | any
  | among (negated : Bool) (ranges : List (Char × Char))
  deriving DecidableEq, Repr

/-- Whether a character is of a kind. -/
def Kind.accepts (c : Char) : Kind → Bool
  | exactly d => c = d
  | any => true
  | among negated ranges => (ranges.any fun (a, b) => a ≤ c && c ≤ b) != negated

/-- One character of a kind, or any number of them. -/
structure Item where
  kind : Kind
  repeated : Bool := false
  deriving DecidableEq, Repr

/-- Whether a pattern matches a whole text. -/
def accepts : List Item → List Char → Bool
  | [], cs => cs.isEmpty
  | ⟨_, false⟩ :: _, [] => false
  | ⟨kind, false⟩ :: items, c :: cs => kind.accepts c && accepts items cs
  | ⟨_, true⟩ :: items, [] => accepts items []
  | ⟨kind, true⟩ :: items, c :: cs =>
    accepts items (c :: cs) || (kind.accepts c && accepts (⟨kind, true⟩ :: items) cs)
termination_by items cs => items.length + cs.length

/-- The ranges between the brackets of a class. -/
def ranges : List Char → List (Char × Char)
  | a :: '-' :: b :: rest => (a, b) :: ranges rest
  | a :: rest => (a, a) :: ranges rest
  | [] => []

/-- The class between brackets. -/
def classOf : List Char → Kind
  | '!' :: rest | '^' :: rest => .among true (ranges rest)
  | rest => .among false (ranges rest)

/-- The pattern of characters, each of which is quoted or not; a quoted one stands for itself. -/
def ofGlob : Nat → List (Char × Bool) → List Item
  | 0, _ | _, [] => []
  | fuel + 1, ('*', false) :: rest => ⟨.any, true⟩ :: ofGlob fuel rest
  | fuel + 1, ('?', false) :: rest => ⟨.any, false⟩ :: ofGlob fuel rest
  | fuel + 1, ('[', false) :: rest =>
    let inside := rest.takeWhile (·.1 ≠ ']')
    ⟨classOf (inside.map (·.1)), false⟩ :: ofGlob fuel (rest.drop (inside.length + 1))
  | fuel + 1, (c, _) :: rest => ⟨.exactly c, false⟩ :: ofGlob fuel rest

/-- The kind at the front of an expression, and what follows it. -/
def kindOf : List Char → Option (Kind × List Char)
  | [] => none
  | '\\' :: c :: rest => some (.exactly c, rest)
  | '.' :: rest => some (.any, rest)
  | '[' :: rest =>
    let inside := rest.takeWhile (· ≠ ']')
    some (classOf inside, rest.drop (inside.length + 1))
  | c :: rest => some (.exactly c, rest)

/-- The items of an expression from behind its start on. -/
def itemsOf : Nat → List Char → List Item
  | 0, _ => []
  | _, ['$'] => []
  | fuel + 1, cs =>
    match kindOf cs with
    | none => [⟨.any, true⟩]
    | some (kind, '*' :: rest) => ⟨kind, true⟩ :: itemsOf fuel rest
    | some (kind, rest) => ⟨kind, false⟩ :: itemsOf fuel rest

/-- The pattern of a basic regular expression that may match anywhere. -/
def ofExpression (expression : List Char) : List Item :=
  match expression with
  | '^' :: rest => itemsOf (rest.length + 1) rest
  | cs => ⟨.any, true⟩ :: itemsOf (cs.length + 1) cs

end ContractConversion.Script
