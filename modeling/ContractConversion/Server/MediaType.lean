/-!
# Media types

The body of a request is JSON if its media type says so: `application/json`, or a type of
`application` whose name ends in `+json`. Case does not matter. Parameters may follow; they are not
looked at, but a type with ill-formed parameters says nothing.
-/

namespace ContractConversion.MediaType

/-- The characters of names and of values without quotes. -/
def isToken (c : Char) : Bool :=
  c.isAlphanum || "!#$%&'+-.^_`|~".toList.contains c

/-- The characters that may stand between quotes. -/
def isQuotable (c : Char) : Bool :=
  0x1F < c.toNat && c.toNat != 0x7F

/-- The characters of a header that can be read as text. -/
def isVisible (c : Char) : Bool :=
  c == '\t' || (0x20 ≤ c.toNat && c.toNat ≤ 0x7E)

/-- What a reader of parameters expects next. -/
inductive Expected where
  /-- A parameter, after blanks, or nothing. -/
  | parameter
  /-- More of a name, or the sign behind it. -/
  | name
  /-- The first character of a value. -/
  | value
  /-- More of a value without quotes. -/
  | token
  /-- The first character between quotes. -/
  | quoted
  /-- More of a value between quotes. -/
  | quotation
  /-- What follows the closing quote. -/
  | separator
  deriving DecidableEq, Repr

/-- What is expected after a character; `none` if the character may not stand there. -/
def Expected.after (c : Char) : Expected → Option Expected
  | parameter => if c = ' ' then some parameter else if isToken c then some name else none
  | name => if c = '=' then some value else if isToken c then some name else none
  | value => if c = '"' then some quoted else if isToken c then some token else none
  | token => if c = ';' then some parameter else if isToken c then some token else none
  | quoted => if isQuotable c then some quotation else none
  | quotation =>
    if c = '"' then some separator else if isQuotable c then some quotation else none
  | separator => if c = ';' then some parameter else if c = ' ' then some separator else none

/-- Whether the parameters may end here. -/
def Expected.mayEnd : Expected → Bool
  | parameter | value | token | separator => true
  | name | quoted | quotation => false

/-- Whether the text behind the first semicolon is a list of parameters. -/
def parametersOk : Expected → List Char → Bool
  | expected, [] => expected.mayEnd
  | expected, c :: rest =>
    match expected.after c with
    | some next => parametersOk next rest
    | none => false

/-- The part behind the last plus sign; a name cannot start with one. -/
def suffix? (subtype : List Char) : Option (List Char) :=
  let behind := subtype.reverse.takeWhile (· ≠ '+')
  if behind.length + 1 < subtype.length then some behind.reverse else none

/-- The name without the suffix and its plus sign. -/
def base (subtype : List Char) : List Char :=
  match suffix? subtype with
  | some suffix => subtype.take (subtype.length - suffix.length - 1)
  | none => subtype

/-- Whether a media type says JSON. -/
def isJson (text : String) : Bool :=
  let cs := text.toList
  let kind := cs.takeWhile isToken
  match cs.dropWhile isToken with
  | '/' :: rest =>
    let subtype := (rest.takeWhile isToken).map Char.toLower
    let wellFormed := match rest.dropWhile isToken with
      | [] => true
      | ';' :: parameters => parametersOk .parameter parameters
      | _ => false
    cs.all isVisible && wellFormed && kind.map Char.toLower == "application".toList &&
      (base subtype == "json".toList || suffix? subtype == some "json".toList)
  | _ => false

end ContractConversion.MediaType
