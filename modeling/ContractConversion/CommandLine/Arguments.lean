import ContractConversion.Text.Occurrence

/-!
# Arguments

The command line is a command with switches and operands; a command may have commands of its own. A
switch is given by its long name, or by one letter, of which several may stand together. Every part
is read from left to right, and what cannot be read is refused at once.
-/

namespace ContractConversion.CommandLine

/-- What `config` does. -/
inductive ConfigAction where
  | present
  | validate
  | create
  deriving DecidableEq, Repr

/-- What `audit` does. -/
inductive AuditAction where
  | present (session : String)
  | list
  deriving DecidableEq, Repr

/-- What is to be done. -/
inductive Command where
  | serve (port : Option Nat) (host : Option String) (offline dev : Bool)
  | convert (file : String) (server : Option String) (json : Bool)
  | config (action : ConfigAction)
  | audit (action : AuditAction)
  deriving DecidableEq, Repr

/-- A command line. -/
structure Invocation where
  verbose : Bool
  /-- The path of the configuration file, if it is given. -/
  config : Option String
  command : Command
  deriving DecidableEq, Repr

/-- Why a command line is no command to carry out. -/
inductive Refusal where
  | help
  | version
  | misuse
  deriving DecidableEq, Repr

/-! ## Switches -/

/-- A switch. -/
structure Switch where
  name : String
  letter : Option Char := none
  /-- Which values it takes, if it takes one. -/
  accepts : Option (String → Bool) := none

/-- What a command admits. -/
structure Level where
  switches : List Switch
  /-- Which operands it takes, one after the other. -/
  operands : List (String → Bool) := []
  commands : List String := []
  /-- Whether it tells its version. -/
  versioned : Bool := false

/-- What is given at a level. -/
structure Given where
  flags : List String := []
  values : List (String × String) := []
  operands : List String := []
  deriving Repr

/-- A port: a number below `2^16`, with a sign if need be. -/
def port? (text : String) : Option Nat :=
  let (negative, digits) := match text.toList with
    | '+' :: digits => (false, digits)
    | '-' :: digits => (true, digits)
    | digits => (false, digits)
  if digits.isEmpty ∨ digits.any (!·.isDigit) then none
  else
    let n := digits.foldl (fun n c => n * 10 + (c.toNat - 0x30)) 0
    if n < Nat.pow 2 16 ∧ (negative = false ∨ n = 0) then some n else none

/-- Any text. -/
def anyText (_ : String) : Bool := true

/-- Any text but the empty one. -/
def someText (text : String) : Bool := text ≠ ""

/-- The switches that every command has. -/
def common : List Switch :=
  [⟨"verbose", some 'v', none⟩, ⟨"config", none, some someText⟩]

namespace Given

/-- Whether a switch was given. -/
def has (g : Given) (name : String) : Bool :=
  g.flags.contains name

/-- The value of a switch. -/
def value? (g : Given) (name : String) : Option String :=
  g.values.lookup name

/-- Sets a switch without a value; it can be set once. -/
def setFlag (g : Given) (name : String) : Except Refusal Given :=
  if g.has name then .error .misuse else .ok { g with flags := name :: g.flags }

/-- Sets the value of a switch; it can be set once. -/
def setValue (g : Given) (name : String) (accepts : String → Bool) (value : String) :
    Except Refusal Given :=
  if (g.value? name).isSome ∨ !accepts value then .error .misuse
  else .ok { g with values := (name, value) :: g.values }

/-- Adds an operand, if there is a place for it. -/
def addOperand (level : Level) (g : Given) (text : String) : Except Refusal Given :=
  match level.operands[g.operands.length]? with
  | some accepts =>
    if accepts text then .ok { g with operands := g.operands ++ [text] } else .error .misuse
  | none => .error .misuse

end Given

/-- The value that stands as an argument of its own. -/
def nextValue : List String → Except Refusal (String × List String)
  | [] => .error .misuse
  | value :: rest => if Text.isSwitch value then .error .misuse else .ok (value, rest)

/-- Reads a switch by its long name, which a value may follow behind an equals sign. -/
def longSwitch (level : Level) (g : Given) (text : List Char) (rest : List String) :
    Except Refusal (Given × List String) := do
  let name := String.ofList (text.takeWhile (· ≠ '='))
  let value := if text.contains '=' then some (String.ofList ((text.dropWhile (· ≠ '=')).drop 1))
    else none
  if value.isNone ∧ name = "help" then throw .help
  if value.isNone ∧ name = "version" ∧ level.versioned then throw .version
  match level.switches.find? (·.name = name) with
  | none => throw .misuse
  | some switch =>
    match switch.accepts, value with
    | none, none => return (← g.setFlag name, rest)
    | none, some _ => throw .misuse
    | some accepts, some value => return (← g.setValue name accepts value, rest)
    | some accepts, none => do
      let (value, rest) ← nextValue rest
      return (← g.setValue name accepts value, rest)

/-- Reads letters, each of which is a switch; what follows one that takes a value is the value. -/
def shortSwitches (level : Level) (g : Given) (rest : List String) :
    List Char → Except Refusal (Given × List String)
  | [] => .ok (g, rest)
  | c :: letters => do
    if c = 'h' then throw .help
    if c = 'V' ∧ level.versioned then throw .version
    match level.switches.find? (·.letter = some c) with
    | none => throw .misuse
    | some switch =>
      match switch.accepts, letters with
      | none, letters => shortSwitches level (← g.setFlag switch.name) rest letters
      | some accepts, [] => do
        let (value, rest) ← nextValue rest
        return (← g.setValue switch.name accepts value, rest)
      | some accepts, '=' :: value =>
        return (← g.setValue switch.name accepts (String.ofList value), rest)
      | some accepts, value =>
        return (← g.setValue switch.name accepts (String.ofList value), rest)

/-- Reads the arguments of a level, up to a command of its own. -/
def readLevel (level : Level) :
    Nat → Given → List String → Except Refusal (Given × Option (String × List String))
  | 0, g, _ | _, g, [] => .ok (g, none)
  | fuel + 1, g, argument :: rest =>
    match argument.toList with
    | ['-', '-'] => do
      let g ← rest.foldlM (Given.addOperand level) g
      return (g, none)
    | '-' :: '-' :: text => do
      let (g, rest) ← longSwitch level g text rest
      readLevel level fuel g rest
    | '-' :: c :: letters => do
      let (g, rest) ← shortSwitches level g rest (c :: letters)
      readLevel level fuel g rest
    | _ =>
      if level.commands.isEmpty then do
        readLevel level fuel (← g.addOperand level argument) rest
      else if argument = "help" then
        if rest.all (level.commands.contains ·) then .error .help else .error .misuse
      else if level.commands.contains argument then .ok (g, some (argument, rest))
      else .error .misuse

/-- Reads all arguments of a level. -/
def read (level : Level) (arguments : List String) :
    Except Refusal (Given × Option (String × List String)) :=
  readLevel level (arguments.length + 1) {} arguments

/-! ## Commands -/

def rootLevel : Level where
  switches := common
  commands := ["serve", "convert", "config", "audit"]
  versioned := true

def serveLevel : Level where
  switches := common ++
    [⟨"port", some 'p', some fun text => (port? text).isSome⟩, ⟨"host", none, some anyText⟩,
      ⟨"offline", none, none⟩, ⟨"dev", none, none⟩]

def convertLevel : Level where
  switches := common ++ [⟨"server", none, some anyText⟩, ⟨"json", none, none⟩]
  operands := [someText]

def configLevel : Level where
  switches := common
  commands := ["show", "validate", "init"]

def auditLevel : Level where
  switches := common
  commands := ["show", "list"]

def showLevel : Level where
  switches := common
  operands := [anyText]

def plainLevel : Level where
  switches := common

/-- Reads `serve`. -/
def readServe (arguments : List String) : Except Refusal (List Given × Command) := do
  let (g, _) ← read serveLevel arguments
  return ([g], .serve ((g.value? "port").bind port?) (g.value? "host") (g.has "offline")
    (g.has "dev"))

/-- Reads `convert`; the server may be given by a variable. -/
def readConvert (server : Option String) (arguments : List String) :
    Except Refusal (List Given × Command) := do
  let (g, _) ← read convertLevel arguments
  match g.operands with
  | [file] => return ([g], .convert file ((g.value? "server").or server) (g.has "json"))
  | _ => throw .misuse

/-- Reads `config`. -/
def readConfig (arguments : List String) : Except Refusal (List Given × Command) := do
  let (g, command) ← read configLevel arguments
  match command with
  | none => return ([g], .config .present)
  | some (name, rest) =>
    let (inner, _) ← read plainLevel rest
    let action : ConfigAction :=
      if name = "show" then .present else if name = "validate" then .validate else .create
    return ([inner, g], .config action)

/-- Reads `audit`. -/
def readAudit (arguments : List String) : Except Refusal (List Given × Command) := do
  let (g, command) ← read auditLevel arguments
  match command with
  | some ("show", rest) =>
    let (inner, _) ← read showLevel rest
    match inner.operands with
    | [session] => return ([inner, g], .audit (.present session))
    | _ => throw .misuse
  | some (_, rest) =>
    let (inner, _) ← read plainLevel rest
    return ([inner, g], .audit .list)
  | none => throw .misuse

/-- Reads a command line. The common switches may stand at any level; of two values that of the
inner level counts. -/
def parse (server : Option String) (arguments : List String) : Except Refusal Invocation := do
  let (g, command) ← read rootLevel arguments
  let (levels, command) ← match command with
    | some ("serve", rest) => readServe rest
    | some ("convert", rest) => readConvert server rest
    | some ("config", rest) => readConfig rest
    | some (_, rest) => readAudit rest
    | none => throw .misuse
  let levels := levels ++ [g]
  return {
    verbose := levels.any (·.has "verbose")
    config := levels.findSome? (·.value? "config")
    command }

end ContractConversion.CommandLine
