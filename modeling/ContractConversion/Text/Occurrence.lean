/-!
# Occurrences

A text occurs in another if the other is made of something, the text, and something else. An
argument of a program that starts with a hyphen is taken for a switch.
-/

namespace ContractConversion.Text

/-- Whether some characters occur among others, side by side. -/
def occursAmong (part : List Char) : List Char → Bool
  | [] => part.isEmpty
  | c :: rest => part.isPrefixOf (c :: rest) || occursAmong part rest

/-- Whether a text occurs in another. -/
def occursIn (part whole : String) : Bool :=
  occursAmong part.toList whole.toList

/-- Whether an argument is taken for a switch; a hyphen alone is not. -/
def isSwitch (argument : String) : Bool :=
  match argument.toList with
  | '-' :: _ :: _ => true
  | _ => false

end ContractConversion.Text
