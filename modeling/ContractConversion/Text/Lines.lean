/-!
# Lines

A line ends at a line break, and a carriage return before the break belongs to it. What stands
behind the last break is a line too, unless it is nothing.
-/

namespace ContractConversion.Text

/-- The text before a line break, given backwards, without the carriage return that belongs to the
break. -/
def endLine : List Char → String
  | '\r' :: rest => String.ofList rest.reverse
  | backwards => String.ofList backwards.reverse

/-- The lines of the characters that go on from `current`, which is given backwards; `before` are
the lines in front of it, the last first. -/
def linesFrom (before : List String) (current : List Char) : List Char → List String
  | [] =>
    (if current.isEmpty then before else String.ofList current.reverse :: before).reverse
  | '\n' :: rest => linesFrom (endLine current :: before) [] rest
  | c :: rest => linesFrom before (c :: current) rest

/-- The lines of a text. -/
def lines (s : String) : List String :=
  linesFrom [] [] s.toList

end ContractConversion.Text
