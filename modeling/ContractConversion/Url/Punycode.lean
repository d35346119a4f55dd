/-!
# Punycode

A label of a host name that has characters beyond ASCII is written in ASCII: first its ASCII
characters, then how to put the others in. These are taken in the order of their numbers. For each
one stands the distance to go, as a number with digits of varying weight; the weights adapt to the
distances so far.
-/

namespace ContractConversion.Url.Punycode

/-- The digits are the letters and then the decimal digits. -/
def digit (n : Nat) : Char :=
  Char.ofNat (if n < 26 then 0x61 + n else 0x30 + (n - 26))

/-- The least value of the last digit at a place. -/
def threshold (place bias : Nat) : Nat :=
  min 26 (max 1 (place - bias))

theorem threshold_pos (place bias : Nat) : 1 ≤ threshold place bias := by
  simp only [threshold]; omega

/-- The digits of a distance from a place on. -/
def distanceFrom (bias place n : Nat) : List Char :=
  let t := threshold place bias
  if n < t then [digit n]
  else digit (t + (n - t) % (36 - t)) :: distanceFrom bias (place + 36) ((n - t) / (36 - t))
termination_by n
decreasing_by
  have h₁ := threshold_pos place bias
  calc (n - threshold place bias) / (36 - threshold place bias)
      ≤ n - threshold place bias := Nat.div_le_self _ _
    _ < n := by omega

/-- Divides a distance until it is small, and counts the places. -/
def scale (distance places : Nat) : Nat × Nat :=
  if 455 < distance then scale (distance / 35) (places + 36) else (distance, places)
termination_by distance
decreasing_by omega

/-- The bias after a distance, of which `count` characters are in place. -/
def adapt (distance count : Nat) (first : Bool) : Nat :=
  let distance := if first then distance / 700 else distance / 2
  let (rest, places) := scale (distance + distance / count) 0
  places + 36 * rest / (rest + 38)

/-- An encoding on its way: what is written (backwards), the distance so far, the bias, and how many
characters are in place. -/
structure State where
  out : List Char := []
  distance : Nat := 0
  bias : Nat := 72
  count : Nat

/-- Passes by a character of the label on the way to all places of the character `n`. -/
def State.pass (basic n : Nat) (s : State) (c : Char) : State :=
  if c.toNat < n then { s with distance := s.distance + 1 }
  else if c.toNat = n then
    { out := (distanceFrom s.bias 36 s.distance).reverse ++ s.out
      distance := 0
      bias := adapt s.distance (s.count + 1) (s.count = basic)
      count := s.count + 1 }
  else s

/-- Goes through the numbers of the characters beyond ASCII, in order; `next` is the number to go on
from. -/
def State.through (label : List Char) (basic : Nat) : List Nat → Nat → State → State
  | [], _, s => s
  | n :: rest, next, s =>
    let s := { s with distance := s.distance + (n - next) * (s.count + 1) }
    let s := label.foldl (State.pass basic n) s
    through label basic rest (n + 1) { s with distance := s.distance + 1 }

/-- A label in ASCII. -/
def encode (label : List Char) : List Char :=
  let ascii := label.filter (·.toNat < 0x80)
  let others := ((label.map Char.toNat).filter (0x80 ≤ ·)).mergeSort.eraseDups
  let s := State.through label ascii.length others 0x80 { count := ascii.length }
  ascii ++ (if ascii.isEmpty then [] else ['-']) ++ s.out.reverse

end ContractConversion.Url.Punycode
