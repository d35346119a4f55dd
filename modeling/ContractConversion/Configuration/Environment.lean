import ContractConversion.Configuration.Basic

/-!
# Overrides from the environment

Eight variables override values of the configuration, one after the other. A variable that holds no
legal value stops the rest; what was applied before it stays.
-/

namespace ContractConversion

/-- Why a text is no number. -/
inductive NumberFault where
  | empty
  | invalidDigit
  | tooLarge
  deriving DecidableEq, Repr

/-- The wording of the fault. -/
def NumberFault.message : NumberFault → String
  | empty => "cannot parse integer from empty string"
  | invalidDigit => "invalid digit found in string"
  | tooLarge => "number too large to fit in target type"

namespace Configuration

/-- Reads the digits behind those that make `n`. The first character that is no digit or leads to
the limit is the fault. -/
def naturalFrom (limit n : Nat) : List Char → Except NumberFault Nat
  | [] => .ok n
  | c :: rest =>
    if c.isDigit then
      let next := n * 10 + (c.toNat - 0x30)
      if next < limit then naturalFrom limit next rest else .error .tooLarge
    else .error .invalidDigit

/-- Reads a natural number below the limit; a plus sign may stand before it. -/
def natural (limit : Nat) (text : String) : Except NumberFault Nat :=
  match text.toList with
  | [] => .error .empty
  | ['+'] => .error .invalidDigit
  | '+' :: digits => naturalFrom limit 0 digits
  | digits => naturalFrom limit 0 digits

/-- Why an override is refused. -/
inductive OverrideFault where
  | number (name value : String) (fault : NumberFault)
  | logFormat (value : String)
  deriving DecidableEq, Repr

/-- The wording of the refusal, from the outermost message to its reason. -/
def OverrideFault.messages : OverrideFault → List String
  | number name value fault => ["Invalid " ++ name ++ " '" ++ value ++ "'", fault.message]
  | logFormat value => ["Invalid log format '" ++ value ++ "'. Valid values: pretty, json"]

/-- Reads a log format in letters of either case. -/
def LogFormat.parse (text : String) : Except OverrideFault LogFormat :=
  let name := String.ofList (text.toList.map Char.toLower)
  if name = "pretty" then .ok .pretty
  else if name = "json" then .ok .json
  else .error (.logFormat text)

/-- A variable, and the configuration with its value. -/
structure Override where
  name : String
  apply : String → Configuration → Except OverrideFault Configuration

/-- A variable that holds a number below the limit. -/
def Override.natural (name : String) (limit : Nat) (set : Nat → Configuration → Configuration) :
    Override where
  name := name
  apply value c :=
    match Configuration.natural limit value with
    | .ok n => .ok (set n c)
    | .error fault => .error (.number name value fault)

/-- A variable that holds any text. -/
def Override.text (name : String) (set : String → Configuration → Configuration) :
    Override where
  name := name
  apply value c := .ok (set value c)

/-- All variables, in the order in which they apply. -/
def overrides : List Override :=
  [ .text "KILN_HOST" fun host c => { c with server := { c.server with host } },
    .natural "KILN_PORT" (Nat.pow 2 16) fun port c => { c with server := { c.server with port } },
    .natural "KILN_MAX_SESSIONS" (Nat.pow 2 64) fun maxSessions c =>
      { c with server := { c.server with maxSessions } },
    .natural "KILN_MAX_ATTEMPTS" (Nat.pow 2 32) fun maxAttempts c =>
      { c with pipeline := { c.pipeline with maxAttempts } },
    .text "CLAUDE_CMD" fun command c => { c with oracle := { c.oracle with command } },
    .text "KILN_VALIDATOR_CMD" fun command c =>
      { c with validator := { c.validator with command } },
    .text "KILN_AUDIT_DIR" fun dir c => { c with audit := { c.audit with dir } },
    { name := "KILN_LOG_FORMAT"
      apply := fun value c => do
        let format ← LogFormat.parse value
        return { c with logging := { c.logging with format } } } ]

/-- Applies overrides one after the other up to the first that is refused. -/
def overrideFrom (lookup : String → Option String) (c : Configuration) :
    List Override → Configuration × Option OverrideFault
  | [] => (c, none)
  | o :: rest =>
    match lookup o.name with
    | none => overrideFrom lookup c rest
    | some value =>
      match o.apply value c with
      | .ok c => overrideFrom lookup c rest
      | .error fault => (c, some fault)

/-- The configuration with the values of the environment. -/
def override (lookup : String → Option String) (c : Configuration) :
    Configuration × Option OverrideFault :=
  overrideFrom lookup c overrides

end Configuration

end ContractConversion
