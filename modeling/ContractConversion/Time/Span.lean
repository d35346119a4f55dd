/-!
# Spans of time

A span is written in the largest of its units, seconds or milliseconds, with the places it needs. No
time at all is written in nanoseconds.
-/

namespace ContractConversion.Time

/-- The places of a second, without zeros at the end. -/
def placesText (millis : Nat) : String :=
  let digits := Nat.toDigits 10 (1000 + millis)
  String.ofList ((digits.drop 1).reverse.dropWhile (· = '0')).reverse

/-- The written form of a number of milliseconds. -/
def spanText (millis : Nat) : String :=
  if millis = 0 then "0ns"
  else if millis < 1000 then toString millis ++ "ms"
  else
    let places := placesText (millis % 1000)
    toString (millis / 1000) ++ (if places.isEmpty then "" else "." ++ places) ++ "s"

end ContractConversion.Time
