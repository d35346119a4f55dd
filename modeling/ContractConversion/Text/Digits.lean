/-!
# Digits

The digits of numbers in bases up to sixteen. They are read in either case; those in lower case are
the characters that `Nat.digitChar` gives.
-/

namespace ContractConversion.Text

/-- The value of a hexadecimal digit of either case. -/
def hexValue? (c : Char) : Option (Fin 16) :=
  if c.isDigit then some (Fin.ofNat 16 (c.toNat - 0x30))
  else if 'a' ≤ c ∧ c ≤ 'f' then some (Fin.ofNat 16 (c.toNat - 0x57))
  else if 'A' ≤ c ∧ c ≤ 'F' then some (Fin.ofNat 16 (c.toNat - 0x37))
  else none

/-- The value of a digit; a character that is none counts for nothing. -/
def digitValue (c : Char) : Nat :=
  ((hexValue? c).getD 0).val

/-- The number that digits write in a base. -/
def valueIn (base : Nat) (digits : List Char) : Nat :=
  digits.foldl (fun n c => n * base + digitValue c) 0

/-- The hexadecimal digit in capitals of a number below sixteen. -/
def upperHexDigit (n : Nat) : Char :=
  (Nat.digitChar n).toUpper

end ContractConversion.Text
