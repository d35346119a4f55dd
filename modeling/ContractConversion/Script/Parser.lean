import ContractConversion.Script.Syntax

/-!
# Reading scripts

The characters of a script are grouped into words, redirections and signs, and these into commands.
Every function that goes on to the end of the script has the number of steps it may take.
-/

namespace ContractConversion.Script

/-- A piece of a script. -/
inductive Token where
  | word (word : Word)
  | redirect (descriptor : Nat) (direction : Direction)
  | sign (sign : String)
  deriving DecidableEq, Repr

/-- The characters of names. -/
def isName (c : Char) : Bool :=
  c.isAlphanum || c = '_'

/-- The characters before the bracket that closes the open one, and those behind it. -/
def untilClosed : Nat → List Char → List Char → List Char × List Char
  | _, inside, [] => (inside.reverse, [])
  | 0, inside, ')' :: rest => (inside.reverse, rest)
  | depth + 1, inside, ')' :: rest => untilClosed depth (')' :: inside) rest
  | depth, inside, '(' :: rest => untilClosed (depth + 1) ('(' :: inside) rest
  | depth, inside, c :: rest => untilClosed depth (c :: inside) rest

/-- The part that a dollar sign starts, and what follows it. -/
def dollar (quoted : Bool) : List Char → Part × List Char
  | '(' :: '(' :: rest =>
    let (expression, rest) := untilClosed 1 [] rest
    (.computed expression.dropLast, rest)
  | '(' :: rest =>
    let (script, rest) := untilClosed 0 [] rest
    (.printed script quoted, rest)
  | '\x7b' :: rest =>
    (.parameter (String.ofList (rest.takeWhile (· ≠ '\x7d'))) quoted,
      (rest.dropWhile (· ≠ '\x7d')).drop 1)
  | c :: rest =>
    if c.isDigit || c = '$' || c = '?' || c = '#' then
      (.parameter (String.ofList [c]) quoted, rest)
    else if isName c then
      (.parameter (String.ofList ((c :: rest).takeWhile isName)) quoted,
        (c :: rest).dropWhile isName)
    else (.text "$" quoted, c :: rest)
  | [] => (.text "$" quoted, [])

/-- A character as a part. -/
def single (c : Char) (quoted : Bool) : Part :=
  .text (String.ofList [c]) quoted

/-- The characters that end a word. -/
def endsWord (c : Char) : Bool :=
  " \t\n;&|<>()".toList.contains c

/-- The characters that a backslash makes literal between double quotes. -/
def escapable (c : Char) : Bool :=
  c = '$' || c = '"' || c = '\\' || c.toNat = 0x60

/-- The word at the front, after the given parts (the last first), and what follows it; `double`
says whether a double quote is open. -/
def wordFrom : Nat → Bool → List Part → List Char → Word × List Char
  | 0, _, parts, cs => (parts.reverse, cs)
  | _, _, parts, [] => (parts.reverse, [])
  | fuel + 1, true, parts, '"' :: rest => wordFrom fuel false parts rest
  | fuel + 1, true, parts, '\\' :: c :: rest =>
    if escapable c then wordFrom fuel true (single c true :: parts) rest
    else wordFrom fuel true (single c true :: single '\\' true :: parts) rest
  | fuel + 1, false, parts, '\\' :: c :: rest => wordFrom fuel false (single c true :: parts) rest
  | fuel + 1, double, parts, '$' :: rest =>
    let (part, rest) := dollar double rest
    wordFrom fuel double (part :: parts) rest
  | fuel + 1, true, parts, c :: rest =>
    if c.toNat = 0x60 then
      let inside := rest.takeWhile (·.toNat ≠ 0x60)
      wordFrom fuel true (.printed inside true :: parts) (rest.drop (inside.length + 1))
    else wordFrom fuel true (single c true :: parts) rest
  | fuel + 1, false, parts, '"' :: rest => wordFrom fuel true (.text "" true :: parts) rest
  | fuel + 1, false, parts, '\'' :: rest =>
    let inside := rest.takeWhile (· ≠ '\'')
    wordFrom fuel false (.text (String.ofList inside) true :: parts) (rest.drop (inside.length + 1))
  | fuel + 1, false, parts, c :: rest =>
    if endsWord c then (parts.reverse, c :: rest)
    else if c.toNat = 0x60 then
      let inside := rest.takeWhile (·.toNat ≠ 0x60)
      wordFrom fuel false (.printed inside false :: parts) (rest.drop (inside.length + 1))
    else wordFrom fuel false (single c false :: parts) rest

/-- The sign at the front, and what follows it. -/
def sign? : List Char → Option (Token × List Char)
  | ';' :: ';' :: rest => some (.sign ";;", rest)
  | ';' :: rest | '\n' :: rest => some (.sign ";", rest)
  | '&' :: '&' :: rest => some (.sign "&&", rest)
  | '|' :: '|' :: rest => some (.sign "||", rest)
  | '|' :: rest => some (.sign "|", rest)
  | '(' :: rest => some (.sign "(", rest)
  | ')' :: rest => some (.sign ")", rest)
  | '>' :: '&' :: rest => some (.redirect 1 .following, rest)
  | '>' :: '>' :: rest => some (.redirect 1 .extending, rest)
  | '>' :: rest => some (.redirect 1 .writing, rest)
  | '<' :: rest => some (.redirect 0 .reading, rest)
  | '&' :: rest => some (.sign ";", rest)
  | _ => none

/-- The tokens of a script. A digit right before a redirection is its descriptor. -/
def tokens : Nat → List Char → List Token
  | 0, _ | _, [] => []
  | fuel + 1, ' ' :: rest | fuel + 1, '\t' :: rest => tokens fuel rest
  | fuel + 1, '#' :: rest => tokens fuel (rest.dropWhile (· ≠ '\n'))
  | fuel + 1, cs =>
    match sign? cs with
    | some (token, rest) => token :: tokens fuel rest
    | none =>
      let (word, rest) := wordFrom (cs.length + 1) false [] cs
      match plain? word, sign? rest with
      | some text, some (.redirect descriptor direction, behind) =>
        match text.toNat? with
        | some n => .redirect n direction :: tokens fuel behind
        | none => .word word :: .redirect descriptor direction :: tokens fuel behind
      | _, _ => .word word :: tokens fuel rest

/-- The text by which a token may be reserved. -/
def Token.name? : Token → Option String
  | word w => plain? w
  | sign s => some s
  | redirect _ _ => none

/-- The name of the first token. -/
def next? (ts : List Token) : Option String :=
  ts.head?.bind Token.name?

/-- The tokens behind separators. -/
def skipSeparators (ts : List Token) : List Token :=
  ts.dropWhile (· = .sign ";")

/-- The names that end a list of commands. -/
def closers : List String :=
  ["then", "elif", "else", "fi", "do", "done", "esac", "\x7d", ")", ";;"]

/-- The names that start a command made of commands. -/
def openers : List String :=
  ["if", "for", "while", "until", "case", "\x7b", "("]

/-- The redirections at the front, and what follows them. -/
def redirectionsOf : List Token → List Redirection × List Token
  | .redirect descriptor direction :: .word target :: rest =>
    let (more, rest) := redirectionsOf rest
    (⟨descriptor, direction, target⟩ :: more, rest)
  | ts => ([], ts)

/-- The words and redirections at the front, and what follows them. -/
def simpleOf : List Token → List Word × List Redirection × List Token
  | .redirect descriptor direction :: .word target :: rest =>
    let (words, redirections, rest) := simpleOf rest
    (words, ⟨descriptor, direction, target⟩ :: redirections, rest)
  | .word word :: rest =>
    let (words, redirections, rest) := simpleOf rest
    (word :: words, redirections, rest)
  | ts => ([], [], ts)

/-- The words at the front, and what follows them. -/
def wordsOf : List Token → List Word × List Token
  | .word word :: rest =>
    let (words, rest) := wordsOf rest
    (word :: words, rest)
  | ts => ([], ts)

/-- The patterns of a branch, and what follows their bracket. -/
def patternsOf : List Token → List Word × List Token
  | .word word :: rest =>
    let (words, rest) := patternsOf rest
    (word :: words, rest)
  | .sign ")" :: rest => ([], rest)
  | .sign _ :: rest => patternsOf rest
  | ts => ([], ts)

mutual

/-- The commands up to a closing name, and what follows them. -/
def listOf : Nat → List Token → Command × List Token
  | 0, ts => (.nothing, ts)
  | fuel + 1, ts =>
    let ts := skipSeparators ts
    if ts.isEmpty || (next? ts).any closers.contains then (.nothing, ts)
    else
      let (first, ts) := pipelineOf fuel ts
      let (first, ts) := chainOf fuel first ts
      match ts with
      | .sign ";" :: rest =>
        let (second, rest) := listOf fuel rest
        (if second = .nothing then first else .sequence first second, rest)
      | ts => (first, ts)

/-- Goes on from a command through the conditions that follow it. -/
def chainOf : Nat → Command → List Token → Command × List Token
  | fuel + 1, first, .sign "&&" :: rest =>
    let (second, rest) := pipelineOf fuel (skipSeparators rest)
    chainOf fuel (.both first second) rest
  | fuel + 1, first, .sign "||" :: rest =>
    let (second, rest) := pipelineOf fuel (skipSeparators rest)
    chainOf fuel (.either first second) rest
  | _, first, ts => (first, ts)

/-- Commands joined by pipes. -/
def pipelineOf : Nat → List Token → Command × List Token
  | 0, ts => (.nothing, ts)
  | fuel + 1, ts =>
    if next? ts = some "!" then
      let (inner, rest) := pipelineOf fuel (ts.drop 1)
      (.negate inner, rest)
    else
      let (first, ts) := commandOf fuel ts
      match ts with
      | .sign "|" :: rest =>
        let (second, rest) := pipelineOf fuel (skipSeparators rest)
        (.pipe first second, rest)
      | ts => (first, ts)

/-- A single command. -/
def commandOf : Nat → List Token → Command × List Token
  | 0, ts => (.nothing, ts)
  | fuel + 1, ts =>
    if (next? ts).any openers.contains then
      let (inner, rest) := compoundOf fuel ts
      let (redirections, rest) := redirectionsOf rest
      (.group inner redirections, rest)
    else
      let (words, redirections, rest) := simpleOf ts
      (.simple words redirections, if rest.length = ts.length then [] else rest)

/-- A command that is made of commands. -/
def compoundOf : Nat → List Token → Command × List Token
  | 0, ts => (.nothing, ts)
  | fuel + 1, ts =>
    match next? ts with
    | some "if" => choiceOf fuel (ts.drop 1)
    | some "for" =>
      let (words, rest) := wordsOf (ts.drop 3)
      let (body, rest) := listOf fuel ((skipSeparators rest).drop 1)
      (.each ((next? (ts.drop 1)).getD "") words body, rest.drop 1)
    | some "while" | some "until" =>
      let (condition, rest) := listOf fuel (ts.drop 1)
      let (body, rest) := listOf fuel (rest.drop 1)
      (.loop (next? ts = some "while") condition body, rest.drop 1)
    | some "case" =>
      match ts.drop 1 with
      | .word subject :: rest => branchesOf fuel subject (rest.drop 1)
      | rest => (.nothing, rest)
    | opener =>
      let (inner, rest) := listOf fuel (ts.drop 1)
      (if opener = some "(" then .apart inner else inner, rest.drop 1)

/-- A choice from behind its first name on. -/
def choiceOf : Nat → List Token → Command × List Token
  | 0, ts => (.nothing, ts)
  | fuel + 1, ts =>
    let (condition, ts) := listOf fuel ts
    let (yes, ts) := listOf fuel (ts.drop 1)
    match next? ts with
    | some "elif" =>
      let (no, ts) := choiceOf fuel (ts.drop 1)
      (.choice condition yes no, ts)
    | some "else" =>
      let (no, ts) := listOf fuel (ts.drop 1)
      (.choice condition yes no, ts.drop 1)
    | _ => (.choice condition yes .nothing, ts.drop 1)

/-- The branches on a word, up to the closing name. -/
def branchesOf : Nat → Word → List Token → Command × List Token
  | 0, _, ts => (.nothing, ts)
  | fuel + 1, subject, ts =>
    let ts := skipSeparators ts
    if ts.isEmpty || next? ts = some "esac" then (.nothing, ts.drop 1)
    else
      let (patterns, ts) := patternsOf (if next? ts = some "(" then ts.drop 1 else ts)
      let (body, ts) := listOf fuel ts
      let (otherwise, ts) :=
        branchesOf fuel subject (if next? ts = some ";;" then ts.drop 1 else ts)
      (.branch subject patterns body otherwise, ts)

end

/-- The command of a script. -/
def parse (script : List Char) : Command :=
  let ts := tokens (script.length + 1) script
  (listOf (5 * ts.length + 5) ts).1

end ContractConversion.Script
