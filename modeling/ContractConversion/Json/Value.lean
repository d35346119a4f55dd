/-!
# JSON values

A number is an integer of the 64-bit range, signed or unsigned, or a binary64. The members of an
object stand in the order in which they are written. An object of arbitrary JSON has its members in
the order of their keys, each key once; such values are called normal.
-/

namespace ContractConversion.Json

/-- A JSON number: an integer from `-2^63` to `2^64 - 1`, or a binary64 given by its bits. -/
inductive Number where
  | int (n : Int)
  | double (bits : UInt64)
  deriving DecidableEq, Repr

/-- A JSON value; the members of an object are in writing order. -/
inductive Value where
  | null
  | bool (b : Bool)
  | num (n : Number)
  | str (s : String)
  | arr (items : List Value)
  | obj (members : List (String × Value))
  deriving Repr, Inhabited

namespace Value

/-- A natural number as a JSON number. -/
def nat (n : Nat) : Value :=
  .num (.int n)

mutual

/-- Equality of values is decidable; doubles are compared by their bits. -/
def decEq : (a b : Value) → Decidable (a = b)
  | .null, b => by cases b <;> first | exact isTrue rfl | exact isFalse (by simp)
  | .bool x, b => by
    cases b
    case bool y => exact if h : x = y then isTrue (by rw [h]) else isFalse (by simp [h])
    all_goals exact isFalse (by simp)
  | .num x, b => by
    cases b
    case num y => exact if h : x = y then isTrue (by rw [h]) else isFalse (by simp [h])
    all_goals exact isFalse (by simp)
  | .str x, b => by
    cases b
    case str y => exact if h : x = y then isTrue (by rw [h]) else isFalse (by simp [h])
    all_goals exact isFalse (by simp)
  | .arr xs, b => by
    cases b
    case arr ys =>
      exact match decEqItems xs ys with
        | isTrue h => isTrue (by rw [h])
        | isFalse h => isFalse (by simp [h])
    all_goals exact isFalse (by simp)
  | .obj xs, b => by
    cases b
    case obj ys =>
      exact match decEqMembers xs ys with
        | isTrue h => isTrue (by rw [h])
        | isFalse h => isFalse (by simp [h])
    all_goals exact isFalse (by simp)

/-- Equality of item lists. -/
def decEqItems : (xs ys : List Value) → Decidable (xs = ys)
  | [], [] => isTrue rfl
  | [], _ :: _ => isFalse (by simp)
  | _ :: _, [] => isFalse (by simp)
  | x :: xs, y :: ys =>
    match decEq x y, decEqItems xs ys with
    | isTrue h, isTrue h' => isTrue (by rw [h, h'])
    | isFalse h, _ => isFalse (by simp [h])
    | _, isFalse h => isFalse (by simp [h])

/-- Equality of member lists. -/
def decEqMembers : (xs ys : List (String × Value)) → Decidable (xs = ys)
  | [], [] => isTrue rfl
  | [], _ :: _ => isFalse (by simp)
  | _ :: _, [] => isFalse (by simp)
  | (k, x) :: xs, (l, y) :: ys =>
    if hk : k = l then
      match decEq x y, decEqMembers xs ys with
      | isTrue h, isTrue h' => isTrue (by rw [hk, h, h'])
      | isFalse h, _ => isFalse (by simp [h])
      | _, isFalse h => isFalse (by simp [h])
    else isFalse (by simp [hk])

end

instance : DecidableEq Value :=
  decEq

/-- The value of the member `key`. -/
def get? (key : String) : Value → Option Value
  | .obj members => members.lookup key
  | _ => none

/-- The text of a string value. -/
def str? : Value → Option String
  | .str s => some s
  | _ => none

/-- An object, as opposed to any other value. -/
def isObject : Value → Bool
  | .obj _ => true
  | _ => false

/-- Puts a member at its place in the order of keys; a member of the same key is replaced. -/
def insertMember (key : String) (v : Value) : List (String × Value) → List (String × Value)
  | [] => [(key, v)]
  | (k, w) :: rest =>
    if key = k then (key, v) :: rest
    else if key < k then (key, v) :: (k, w) :: rest
    else (k, w) :: insertMember key v rest

/-- The object with the given members: in the order of keys, the last of each key. -/
def ofMembers (members : List (String × Value)) : Value :=
  .obj (members.foldl (fun acc (k, v) => insertMember k v acc) [])

mutual

/-- The normal form of a value: every object in the order of keys, the last member of each key. -/
def normalize : Value → Value
  | .arr items => .arr (normalizeItems items)
  | .obj members => ofMembers (normalizeMembers members)
  | v => v

/-- The normal forms of items. -/
def normalizeItems : List Value → List Value
  | [] => []
  | v :: rest => normalize v :: normalizeItems rest

/-- Members with their values in normal form, in the given order. -/
def normalizeMembers : List (String × Value) → List (String × Value)
  | [] => []
  | (k, v) :: rest => (k, normalize v) :: normalizeMembers rest

end

mutual

/-- The number of containers inside one another. -/
def depth : Value → Nat
  | .arr items => depthItems items + 1
  | .obj members => depthMembers members + 1
  | _ => 0

/-- The greatest depth of an item. -/
def depthItems : List Value → Nat
  | [] => 0
  | v :: rest => max (depth v) (depthItems rest)

/-- The greatest depth of a member. -/
def depthMembers : List (String × Value) → Nat
  | [] => 0
  | (_, v) :: rest => max (depth v) (depthMembers rest)

end

end Value

end ContractConversion.Json
