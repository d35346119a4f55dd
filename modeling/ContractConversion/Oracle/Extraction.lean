import ContractConversion.Json.Tree
import ContractConversion.Oracle.Completion
import ContractConversion.Text.Blank

/-!
# The object in an answer

Models often wrap the object that they were asked for in prose or in a fenced block. The first block
that holds nothing but braces from end to end counts, up to its first closing brace before a fence;
without such a block the whole answer does. The object then reaches from the first opening brace to
the last closing one.
-/

namespace ContractConversion

open Json (Value)

namespace Extraction

/-- The mark of a fenced block. -/
def fence : List Char := ['`', '`', '`']

/-- The text up to the first closing brace that only blanks separate from a fence. The characters
before the input are given last first. -/
def upToFence (before : List Char) : List Char → Option (List Char)
  | [] => none
  | c :: rest =>
    if c = '\x7d' ∧ fence.isPrefixOf (rest.dropWhile Text.isBlank) then
      some (c :: before).reverse
    else upToFence (c :: before) rest

/-- The text without the label `json` at its front, if it has it. -/
def dropLabel (cs : List Char) : List Char :=
  if ['j', 's', 'o', 'n'].isPrefixOf cs then cs.drop 4 else cs

/-- The object in a fenced block that starts at the front of the text. -/
def blockAt (cs : List Char) : Option (List Char) :=
  if fence.isPrefixOf cs then
    match (dropLabel (cs.drop 3)).dropWhile Text.isBlank with
    | '\x7b' :: rest => upToFence ['\x7b'] rest
    | _ => none
  else none

/-- The object in the first fenced block. -/
def firstBlock : List Char → Option (List Char)
  | [] => none
  | c :: rest => (blockAt (c :: rest)).or (firstBlock rest)

/-- The text up to its last closing brace. -/
def upToLastBrace (cs : List Char) : List Char :=
  (cs.reverse.dropWhile (· ≠ '\x7d')).reverse

/-- Reads the object of an answer. -/
def extract (text : String) : Except OracleFault Value :=
  let body := (firstBlock text.toList).getD text.toList
  match body.dropWhile (· ≠ '\x7b') with
  | [] => .error (.malformed "no JSON object in response")
  | cs =>
    match upToLastBrace cs with
    | [] => .error (.malformed "truncated JSON object in response")
    | cs =>
      let input := cs.map Text.Symbol.char
      match Value.parse input with
      | .error fault => .error (.malformed ("invalid JSON: " ++ fault.messageIn input))
      | .ok v =>
        if v.isObject then .ok v else .error (.malformed "response is not a JSON object")

end Extraction

end ContractConversion
