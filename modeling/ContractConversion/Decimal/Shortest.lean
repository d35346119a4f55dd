/-!
# Shortest decimals

A finite binary64 value is `m · 2^q` for natural numbers `m` and an integer `q`. A decimal reads
back as the value when it lies in the interval of the reals that round to it, whose ends belong to
it iff `m` is even. The shortest decimal has the fewest digits among those, and of the ones with
that many digits it is the nearest. All comparisons are exact, on fractions of natural numbers.
-/

namespace ContractConversion.Decimal

/-- The magnitude `m · 2^q` of a binary64 value. -/
structure Binary where
  m : Nat
  q : Int
  deriving DecidableEq, Repr

namespace Binary

/-- The magnitude of a finite value, from its 64 bits. -/
def ofBits (bits : UInt64) : Binary :=
  let fraction : Nat := bits.toNat % Nat.pow 2 52
  let exponent : Nat := bits.toNat / Nat.pow 2 52 % Nat.pow 2 11
  if exponent = 0 then ⟨fraction, -1074⟩ else ⟨Nat.pow 2 52 + fraction, (exponent : Int) - 1075⟩

/-- A quarter of the distance to the next value above is `2^(q - 2)`: the unit of the interval. -/
def low (b : Binary) : Nat :=
  if b.m = Nat.pow 2 52 ∧ -1074 < b.q then 4 * b.m - 1 else 4 * b.m - 2

/-- The upper end of the interval, in the same unit. -/
def high (b : Binary) : Nat :=
  4 * b.m + 2

end Binary

/-- The fraction `numerator / denominator`. -/
structure Fraction where
  numerator : Nat
  denominator : Nat

namespace Fraction

/-- The fraction `n · base^e`. -/
def scaled (n base : Nat) (e : Int) : Fraction :=
  if 0 ≤ e then ⟨n * Nat.pow base e.toNat, 1⟩ else ⟨n, Nat.pow base (-e).toNat⟩

def lt (a b : Fraction) : Bool :=
  a.numerator * b.denominator < b.numerator * a.denominator

def le (a b : Fraction) : Bool :=
  a.numerator * b.denominator ≤ b.numerator * a.denominator

/-- The distance of two fractions. -/
def distance (a b : Fraction) : Fraction :=
  let x := a.numerator * b.denominator
  let y := b.numerator * a.denominator
  ⟨(x - y) + (y - x), a.denominator * b.denominator⟩

/-- The whole part of `a / 10^k`. -/
def floorOnGrid (a : Fraction) (k : Int) : Nat :=
  if 0 ≤ k then a.numerator / (a.denominator * Nat.pow 10 k.toNat)
  else a.numerator * Nat.pow 10 (-k).toNat / a.denominator

end Fraction

/-- A decimal `digits · 10^exponent`. -/
structure Scientific where
  digits : Nat
  exponent : Int
  deriving DecidableEq, Repr

namespace Scientific

def toFraction (d : Scientific) : Fraction :=
  .scaled d.digits 10 d.exponent

end Scientific

/-- The number of decimal digits of `n`. -/
def width (n : Nat) : Nat :=
  (Nat.toDigits 10 n).length

/-- The exponent of the first significant digit of a positive fraction. -/
def leadingExponent (a : Fraction) : Int :=
  if a.denominator ≤ a.numerator then (width (a.numerator / a.denominator) : Int) - 1
  else
    let steps := (List.range 330).find? (fun j => a.denominator ≤ a.numerator * Nat.pow 10 j)
    0 - ((steps.getD 330 : Nat) : Int)

/-- Whether a decimal reads back as the value `b`. -/
def readsBack (b : Binary) (d : Scientific) : Bool :=
  let low := Fraction.scaled b.low 2 (b.q - 2)
  let high := Fraction.scaled b.high 2 (b.q - 2)
  if b.m % 2 = 0 then low.le d.toFraction && d.toFraction.le high
  else low.lt d.toFraction && d.toFraction.lt high

/-- The better of the value's two neighbours on the grid of multiples of `10^k`, if one of them
reads back: the nearer one, and of two equally near ones the even one. -/
def onGrid? (b : Binary) (k : Int) : Option Scientific :=
  let value := Fraction.scaled b.m 2 b.q
  let below : Scientific := ⟨value.floorOnGrid k, k⟩
  let above : Scientific := ⟨below.digits + 1, k⟩
  match readsBack b below, readsBack b above with
  | false, false => none
  | true, false => some below
  | false, true => some above
  | true, true =>
    let down := value.distance below.toFraction
    let up := value.distance above.toFraction
    if down.lt up then some below
    else if up.lt down then some above
    else if below.digits % 2 = 0 then some below else some above

/-- Drops the zeros at the end of the digits. -/
def dropZeros : Nat → Scientific → Scientific
  | 0, d => d
  | fuel + 1, d =>
    if d.digits ≠ 0 ∧ d.digits % 10 = 0 then dropZeros fuel ⟨d.digits / 10, d.exponent + 1⟩ else d

/-- The shortest decimal of a positive value; seventeen digits always suffice. -/
def shortest (b : Binary) : Scientific :=
  let top := leadingExponent (.scaled b.m 2 b.q)
  let grids := (List.range 17).map fun (n : Nat) => top - n
  dropZeros 17 ((grids.findSome? (onGrid? b)).getD ⟨0, 0⟩)

end ContractConversion.Decimal
