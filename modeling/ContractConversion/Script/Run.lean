import ContractConversion.Oracle.Program
import ContractConversion.Script.Parser
import ContractConversion.Script.Program

/-!
# Running scripts

A script runs against files that are kept apart from all others. It is over when it ends itself or
is killed, and otherwise after its last command, whose exit code it takes.

`Script.start` is a machine (`Machine`) for validators that are scripts. No other part of the
service knows it: what a validation does is told for every machine.
-/

namespace ContractConversion.Script

/-- What a command finds. -/
structure Environment where
  /-- What the script is called. -/
  name : String
  arguments : List String := []
  values : List (String × Bytes) := []
  files : Files := {}
  /-- The exit code of the last command. -/
  code : Nat := 0

/-- How far a command has come. -/
inductive Flow where
  | on
  | exited
  | killed
  deriving DecidableEq, Repr

/-- What a command leaves. -/
structure State where
  environment : Environment
  out : Bytes := []
  err : Bytes := []
  flow : Flow := .on

namespace Environment

/-- The value of a parameter. -/
def value (e : Environment) (name : String) : Bytes :=
  match name with
  | "0" => Text.Utf8.encode e.name
  | "?" => Text.Utf8.encode (toString e.code)
  | "#" => Text.Utf8.encode (toString e.arguments.length)
  | "$" => Text.Utf8.encode "1"
  | name =>
    match name.toNat? with
    | some n => ((e.arguments[n - 1]?).map Text.Utf8.encode).getD []
    | none => (e.values.lookup name).getD []

/-- The part that is left of a text without the shortest or the longest piece at its front that a
pattern matches. -/
def withoutFront (longest : Bool) (pattern : List Item) (cs : List Char) : List Char :=
  let lengths := List.range (cs.length + 1)
  match (if longest then lengths.reverse else lengths).find? fun n =>
    accepts pattern (cs.take n) with
  | some n => cs.drop n
  | none => cs

/-- The part that is left of a text without such a piece at its end. -/
def withoutEnd (longest : Bool) (pattern : List Item) (cs : List Char) : List Char :=
  let lengths := List.range (cs.length + 1)
  match (if longest then lengths else lengths.reverse).find? fun n =>
    accepts pattern (cs.drop n) with
  | some n => cs.take n
  | none => cs

/-- The value of a parameter in braces: it may be shortened at an end, or stand in for none. -/
def expand (e : Environment) (text : String) : Bytes :=
  let cs := text.toList
  let name := match cs.takeWhile isName with
    | [] => cs.take 1
    | name => name
  let value := e.value (String.ofList name)
  let pattern := fun (p : List Char) => ofGlob (p.length + 1) (p.map fun c => (c, false))
  let shortened := fun (act : List Char → List Char) =>
    Text.Utf8.encode (String.ofList (act (characters value)))
  match cs.drop name.length with
  | '#' :: '#' :: p => shortened (withoutFront true (pattern p))
  | '#' :: p => shortened (withoutFront false (pattern p))
  | '%' :: '%' :: p => shortened (withoutEnd true (pattern p))
  | '%' :: p => shortened (withoutEnd false (pattern p))
  | ':' :: '-' :: other => if value.isEmpty then Text.Utf8.encode (String.ofList other) else value
  | _ => value

/-- The numbers and signs of a calculation. -/
def operandsOf (e : Environment) (expression : List Char) : List String :=
  let spaced := expression.flatMap fun c => if isName c then [c] else [' ', c, ' ']
  let pieces := ((spaced.filter (· ≠ '$')).splitOn ' ').filter (!·.isEmpty)
  pieces.map fun piece =>
    let word := String.ofList piece
    if piece.all isName ∧ word.toInt?.isNone then Text.Utf8.lossy (e.value word) else word

/-- The value of a calculation: products before sums, from left to right. -/
def compute (total product : Int) : List String → Int
  | "+" :: n :: rest => compute (total + product) (n.toInt?.getD 0) rest
  | "-" :: n :: rest => compute (total + product) (-(n.toInt?.getD 0)) rest
  | "*" :: n :: rest => compute total (product * n.toInt?.getD 0) rest
  | "/" :: n :: rest => compute total (product.tdiv (n.toInt?.getD 1)) rest
  | "%" :: n :: rest => compute total (product.tmod (n.toInt?.getD 1)) rest
  | n :: rest => compute total (n.toInt?.getD 0) rest
  | [] => total + product

/-- The written value of a calculation. -/
def computed (e : Environment) (expression : List Char) : Bytes :=
  Text.Utf8.encode (toString (compute 0 0 (e.operandsOf expression)))

/-- Sets a variable. -/
def set (e : Environment) (name : String) (v : Bytes) : Environment :=
  { e with values := (name, v) :: e.values }

end Environment

namespace State

/-- Goes on with what a later command leaves. -/
def followedBy (s : State) (next : State) : State :=
  { next with out := s.out ++ next.out, err := s.err ++ next.err }

/-- Runs the next command unless the script is over. -/
def andThen (s : State) (next : Environment → State) : State :=
  if s.flow = .on then s.followedBy (next s.environment) else s

/-- Ends a command with a code. -/
def done (e : Environment) (code : Nat) : State :=
  { environment := { e with code } }

end State

/-- Goes on by a byte that is not quoted, from the words so far (the last first) and the word that
is open. -/
def splitByte (before : List Bytes × Option Bytes) (b : UInt8) : List Bytes × Option Bytes :=
  if b = 0x20 ∨ b = 9 ∨ b = 10 then (before.2.toList ++ before.1, none)
  else (before.1, some (before.2.getD [] ++ [b]))

/-- Splits what is not quoted at blanks; what is quoted stays in one piece. -/
def split (pieces : List (Bytes × Bool)) : List Bytes :=
  let (words, current) := pieces.foldl (fun before (bytes, quoted) =>
    if quoted then (before.1, some (before.2.getD [] ++ bytes))
    else bytes.foldl splitByte before) ([], none)
  (current.toList ++ words).reverse

/-- The name and the rest of a word that sets a variable. -/
def assignment? (word : Word) : Option (String × Word) :=
  let name := word.takeWhile fun part => part ≠ .text "=" false
  match plain? name, word.drop name.length with
  | some text, _ :: value =>
    if text ≠ "" ∧ text.toList.all isName then some (text, value) else none
  | _, _ => none

/-- Where the two outputs of a command go. -/
inductive Goal where
  | out
  | err
  | file (path : String)
  deriving DecidableEq, Repr

/-- The goals after a redirection. -/
def redirect (goals : Goal × Goal) (r : Redirection) (target : String) : Goal × Goal :=
  let goal := match r.direction with
    | .following => if target = "2" then goals.2 else goals.1
    | _ => .file target
  match r.direction, r.descriptor with
  | .reading, _ => goals
  | _, 2 => (goals.1, goal)
  | _, _ => (goal, goals.2)

/-- Sends bytes to a goal. -/
def send (s : State) (goal : Goal) (extend : Bool) (bytes : Bytes) : State :=
  match goal with
  | .out => { s with out := s.out ++ bytes }
  | .err => { s with err := s.err ++ bytes }
  | .file "/dev/null" => s
  | .file path =>
    let files := s.environment.files
    let written := if extend then files.append path bytes else files.write path bytes
    { s with environment := { s.environment with files := written.toOption.getD files } }

/-- Sends the outputs of a command where its redirections say. -/
def deliver (s : State) (redirections : List (Redirection × String)) : State :=
  let goals := redirections.foldl (fun goals (r, target) => redirect goals r target)
    (.out, .err)
  let extend := redirections.any fun (r, _) => r.direction = .extending
  send (send { s with out := [], err := [] } goals.1 extend s.out) goals.2 extend s.err

/-- The input of a command, if its file is there. -/
def inputOf (files : Files) (input : Bytes) (redirections : List (Redirection × String)) :
    Option Bytes :=
  redirections.foldlM (fun input (r, target) =>
    match r.direction with
    | .reading => if target = "/dev/null" then some [] else (files.readBytes target).toOption
    | _ => some input) input

/-- Runs a command by its name. -/
def call (e : Environment) (input : Bytes) (name : String) (arguments : List Bytes) : State :=
  match name with
  | ":" => .done e 0
  | "export" =>
    .done (arguments.foldl (fun e argument =>
      let cs := characters argument
      let name := cs.takeWhile (· ≠ '=')
      if name.length = cs.length then e
      else e.set (String.ofList name)
        (Text.Utf8.encode (String.ofList (cs.drop (name.length + 1))))) e) 0
  | "exit" =>
    let code := match arguments with
      | [] => e.code
      | a :: _ => match (Text.Utf8.lossy a).toNat? with
        | some n => n % 256
        | none => 2
    { State.done e code with flow := .exited }
  | "kill" => { State.done e 0 with flow := .killed }
  | name =>
    match Program.ofName? name with
    | some program =>
      let effect := program { name, arguments, input, files := e.files }
      { environment := { e with files := effect.files, code := effect.code }
        out := effect.out
        err := effect.err }
    | none =>
      { State.done e 127 with
        err := Text.Utf8.encode (e.name ++ ": 1: " ++ name ++ ": not found\n") }

mutual

/-- The pieces of a word, each with whether it stays in one piece. -/
def pieces : Nat → Environment → Bytes → Word → List (Bytes × Bool)
  | 0, _, _, _ | _, _, _, [] => []
  | fuel + 1, e, input, .text text _ :: rest =>
    (Text.Utf8.encode text, true) :: pieces fuel e input rest
  | fuel + 1, e, input, .parameter name quoted :: rest =>
    (e.expand name, quoted) :: pieces fuel e input rest
  | fuel + 1, e, input, .computed expression :: rest =>
    (e.computed expression, true) :: pieces fuel e input rest
  | fuel + 1, e, input, .printed script quoted :: rest =>
    let printed := (run fuel e input (parse script)).out
    ((printed.reverse.dropWhile (· = 10)).reverse, quoted) :: pieces fuel e input rest

/-- What a command leaves. -/
def run : Nat → Environment → Bytes → Command → State
  | 0, e, _, _ => .done e 2
  | fuel + 1, e, input, command =>
    let whole := fun (word : Word) => (pieces fuel e input word).flatMap (·.1)
    let targets := fun (redirections : List Redirection) =>
      redirections.map fun r => (r, Text.Utf8.lossy (whole r.target))
    match command with
    | .nothing => .done e 0
    | .sequence first second =>
      (run fuel e input first).andThen fun e => run fuel e input second
    | .both first second =>
      (run fuel e input first).andThen fun e =>
        if e.code = 0 then run fuel e input second else .done e e.code
    | .either first second =>
      (run fuel e input first).andThen fun e =>
        if e.code = 0 then .done e 0 else run fuel e input second
    | .negate inner =>
      (run fuel e input inner).andThen fun e => .done e (if e.code = 0 then 1 else 0)
    | .pipe first second =>
      let s := run fuel e input first
      let t := run fuel { e with files := s.environment.files } s.out second
      { t with err := s.err ++ t.err, flow := .on }
    | .choice condition yes no =>
      (run fuel e input condition).andThen fun e =>
        run fuel e input (if e.code = 0 then yes else no)
    | .branch subject patterns body otherwise =>
      let text := characters (whole subject)
      let fits := patterns.any fun word =>
        let marked := word.flatMap fun part =>
          let quoted := match part with
            | .text _ quoted | .parameter _ quoted | .printed _ quoted => quoted
            | .computed _ => true
          (characters (whole [part])).map fun c => (c, quoted)
        accepts (ofGlob (marked.length + 1) marked) text
      run fuel e input (if fits then body else otherwise)
    | .each name words body =>
      (words.flatMap fun word => split (pieces fuel e input word)).foldl
        (fun (s : State) item => s.andThen fun e => run fuel (e.set name item) input body)
        (.done e 0)
    | .loop succeeding condition body =>
      (run fuel e input condition).andThen fun e =>
        if decide (e.code = 0) = succeeding then
          (run fuel e input body).andThen fun e =>
            run fuel e input (.loop succeeding condition body)
        else .done e 0
    | .apart inner =>
      let s := run fuel e input inner
      { s with
        environment := { e with files := s.environment.files, code := s.environment.code }
        flow := if s.flow = .exited then .on else s.flow }
    | .group inner redirections =>
      let targets := targets redirections
      match inputOf e.files input targets with
      | none => .done e 2
      | some input => deliver (run fuel e input inner) targets
    | .simple words redirections =>
      let targets := targets redirections
      let settings := (words.takeWhile fun word => (assignment? word).isSome).filterMap assignment?
      let e := settings.foldl (fun e (name, value) => e.set name (whole value)) e
      match inputOf e.files input targets with
      | none => .done e 2
      | some input =>
        match (words.drop settings.length).flatMap fun word => split (pieces fuel e input word) with
        | [] => .done e 0
        | name :: arguments =>
          let left := match Text.Utf8.lossy name, arguments with
            | "sh", [0x2D, 0x63] :: script :: words =>
              let words := words.map Text.Utf8.lossy
              let inner := { e with name := words.headD "sh", arguments := words.drop 1 }
              let s := run fuel inner input (parse (characters script))
              let code := if s.flow = .killed then 137 else s.environment.code
              { s with environment := { e with files := s.environment.files, code }, flow := .on }
            | "exec", name :: arguments =>
              { call e input (Text.Utf8.lossy name) arguments with flow := .exited }
            | name, arguments => call e input name arguments
          deliver left targets

end

/-- What a script leaves that is run under a name. -/
def execute (name : String) (arguments : List String) (files : Files) (script : String) :
    ProgramOutput × Files :=
  let cs := script.toList
  let s := run (8 * cs.length + 20000) { name, arguments, files } [] (parse cs)
  ({ code := if s.flow = .killed then none else some s.environment.code
     stdout := s.out
     stderr := s.err }, s.environment.files)

/-- The machine of scripts: a command is a script for the shell, or one of the small programs, or
there is no such command. -/
def start : Machine := fun files command arguments =>
  if (command :: arguments).any fun text => text.toList.contains '\x00' then
    (.notStarted "nul byte found in provided data", files)
  else
    match Program.plainName command, arguments with
    | "sh", "-c" :: script :: words =>
      let (left, files) := execute (words.headD "sh") (words.drop 1) files script
      (.ended left, files)
    | _, _ =>
      match Program.ofName? command with
      | none => (.notStarted FileFault.notFound.message, files)
      | some program =>
        let arguments := arguments.map Text.Utf8.encode
        let effect := program { name := command, arguments, input := [], files }
        (.ended { code := some effect.code, stdout := effect.out, stderr := effect.err },
          effect.files)

end ContractConversion.Script
