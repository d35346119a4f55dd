/-!
# Scripts

A script is a sequence of commands, joined by conditions and pipes. A command is a list of words
with redirections. A word is made of parts; what is quoted in it stays in one piece.
-/

namespace ContractConversion.Script

/-- A part of a word. -/
inductive Part where
  | text (text : String) (quoted : Bool)
  | parameter (name : String) (quoted : Bool)
  /-- What a script prints. -/
  | printed (script : List Char) (quoted : Bool)
  /-- The value of a calculation. -/
  | computed (expression : List Char)
  deriving DecidableEq, Repr

/-- The parts of a word. -/
abbrev Word : Type := List Part

/-- Where a command reads or writes. -/
inductive Direction where
  | reading
  | writing
  | extending
  /-- Writing where another descriptor writes. -/
  | following
  deriving DecidableEq, Repr

/-- A descriptor with its file, or with the descriptor to follow. -/
structure Redirection where
  descriptor : Nat
  direction : Direction
  target : Word
  deriving DecidableEq, Repr

/-- A command. -/
inductive Command where
  | nothing
  | simple (words : List Word) (redirections : List Redirection)
  /-- What the first prints is the input of the second. -/
  | pipe (first second : Command)
  | sequence (first second : Command)
  /-- The second runs if the first succeeds. -/
  | both (first second : Command)
  /-- The second runs if the first fails. -/
  | either (first second : Command)
  | negate (inner : Command)
  | choice (condition yes no : Command)
  /-- The body runs if the word matches one of the patterns, and otherwise the other command. -/
  | branch (subject : Word) (patterns : List Word) (body otherwise : Command)
  | each (name : String) (words : List Word) (body : Command)
  /-- The body runs as long as the condition succeeds, or fails. -/
  | loop (succeeding : Bool) (condition body : Command)
  | group (inner : Command) (redirections : List Redirection)
  /-- What the inner command sets, and whether it exits, does not matter outside. -/
  | apart (inner : Command)
  deriving DecidableEq, Repr, Inhabited

/-- The text of a word without quotes and parameters. -/
def plain? (word : Word) : Option String :=
  (word.mapM fun (part : Part) =>
    match part with
    | .text s false => some s
    | _ => none).map String.join

end ContractConversion.Script
