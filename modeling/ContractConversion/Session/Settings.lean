import ContractConversion.Text.Blank

/-!
# Settings and the check of a source

A source is refused before anything runs if it is blank, or if it has more or fewer characters than
the settings allow.
-/

namespace ContractConversion

/-- The limits of a session. -/
structure Settings where
  maxAttempts : Nat := 3
  /-- The time budget of a session. -/
  timeoutMs : Nat := 900000
  minSourceChars : Nat := 20
  maxSourceChars : Nat := 200000
  deriving DecidableEq, Repr

/-- Why a source is refused. -/
inductive InputFault where
  | empty
  | tooShort (minimum actual : Nat)
  | tooLarge (maximum actual : Nat)
  deriving DecidableEq, Repr

namespace InputFault

/-- The wording of the fault. -/
def message : InputFault → String
  | empty => "Source is empty"
  | tooShort minimum actual =>
    "Source is too short (" ++ toString actual ++ " chars, minimum " ++ toString minimum ++ ")"
  | tooLarge maximum actual =>
    "Source is too large (" ++ toString actual ++ " chars, maximum " ++ toString maximum ++ ")"

end InputFault

namespace Settings

/-- The objection to a source: it is blank, too large or too short, in this order. -/
def checkInput (s : Settings) (source : String) : Except InputFault Unit :=
  let actual := source.length
  if Text.allBlank source then .error .empty
  else if s.maxSourceChars < actual then .error (.tooLarge s.maxSourceChars actual)
  else if actual < s.minSourceChars then .error (.tooShort s.minSourceChars actual)
  else .ok ()

/-- The number of attempts of a session; there is at least one. -/
def attempts (s : Settings) : Nat :=
  max 1 s.maxAttempts

/-- The largest body of a request in bytes: four bytes a character and room for what stands around
the source, below `2^64`. -/
def bodyLimit (s : Settings) : Nat :=
  min (s.maxSourceChars * 4 + 1024) (Nat.pow 2 64 - 1)

end Settings

end ContractConversion
