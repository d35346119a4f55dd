import ContractConversion.Url.Host

/-!
# Addresses

An address has a scheme, mostly a host, a path, and may have a query and a fragment. Reading one
brings it into its normal form. Credentials are read and left out, and so is a port that the scheme
implies.
-/

namespace ContractConversion.Url

/-- An address in normal form. -/
structure Address where
  scheme : List Char
  host : Option (List Char)
  port : Option Nat := none
  path : List Char
  query : Option (List Char) := none
  fragment : Option (List Char) := none
  deriving DecidableEq, Repr

/-- The schemes whose addresses name a host, with their ports. -/
def specialPorts : List (String × Option Nat) :=
  [("http", some 80), ("https", some 443), ("ws", some 80), ("wss", some 443), ("ftp", some 21),
    ("file", none)]

/-- Whether a scheme is one of these. -/
def isSpecial (scheme : List Char) : Bool :=
  (specialPorts.lookup (String.ofList scheme)).isSome

/-- The text of an address without blanks and controls around it, and without line breaks and
tabs. -/
def clean (cs : List Char) : List Char :=
  let atEnd := fun (c : Char) => c.toNat ≤ 0x20
  (((cs.dropWhile atEnd).reverse.dropWhile atEnd).reverse).filter fun c =>
    c ≠ '\t' ∧ c ≠ '\n' ∧ c ≠ '\r'

/-- The scheme of an address in small letters, and what follows its colon. -/
def scheme? (cs : List Char) : Option (List Char × List Char) :=
  let scheme := cs.takeWhile fun c => c.isAlphanum || c = '+' || c = '-' || c = '.'
  match scheme, cs.drop scheme.length with
  | first :: _, ':' :: rest =>
    if first.isAlpha then some (scheme.map Char.toLower, rest) else none
  | _, _ => none

/-- The part before a character, and the part behind it if it is there. -/
def cut (c : Char) (cs : List Char) : List Char × Option (List Char) :=
  let before := cs.takeWhile (· ≠ c)
  (before, if before.length < cs.length then some (cs.drop (before.length + 1)) else none)

/-- Whether a character separates the names of a path. -/
def isSlash (special : Bool) (c : Char) : Bool :=
  c = '/' || (special && c = '\\')

/-- The names between the slashes. -/
def names (special : Bool) (cs : List Char) : List (List Char) :=
  cs.foldr (fun d pieces =>
    match pieces with
    | [] => [[d]]
    | piece :: rest => if isSlash special d then [] :: piece :: rest else (d :: piece) :: rest) [[]]

/-- A name with its dots written as such. -/
def undotted : List Char → List Char
  | '%' :: '2' :: 'e' :: rest | '%' :: '2' :: 'E' :: rest => '.' :: undotted rest
  | c :: rest => c :: undotted rest
  | [] => []

/-- Goes on from the names of a path (the last first) by further names. One dot stays, two dots go
back, and at the end both leave an empty name. -/
def walk : List (List Char) → List (List Char) → List (List Char)
  | before, [] => before.reverse
  | before, name :: rest =>
    let plain := undotted name
    let before :=
      if plain = ['.', '.'] then before.drop 1
      else if plain = ['.'] then before
      else percentEncode inPath name :: before
    let left := rest.isEmpty && (plain = ['.', '.'] || plain = ['.'])
    walk (if left then [] :: before else before) rest

/-- The path that starts with a slash. -/
def absolutePath (special : Bool) (cs : List Char) : List Char :=
  let cs := match cs with
    | c :: rest => if isSlash special c then rest else c :: rest
    | [] => []
  (walk [] (names special cs)).flatMap ('/' :: ·)

/-- The characters before the path, query and fragment of an address. -/
def authority (special : Bool) (cs : List Char) : List Char :=
  cs.takeWhile fun c => !isSlash special c

/-- The part behind the last at sign. -/
def withoutCredentials (cs : List Char) : List Char :=
  (cs.reverse.takeWhile (· ≠ '@')).reverse

/-- The host and the port in writing: the colon between them stands outside of brackets. -/
def hostAndPort (cs : List Char) : List Char × Option (List Char) :=
  match cs with
  | '[' :: _ =>
    let (inside, behind) := cut ']' cs
    match behind with
    | some (':' :: port) => (inside ++ [']'], some port)
    | some [] => (inside ++ [']'], none)
    | some rest => (inside ++ ']' :: rest, none)
    | none => (cs, none)
  | _ => cut ':' cs

/-- A port; none at all is none. -/
def port? (scheme : List Char) : Option (List Char) → Option (Option Nat)
  | none | some [] => some none
  | some digits =>
    if digits.all Char.isDigit then do
      let n ← digitsValue? 10 digits
      if 65535 < n then none
      else
        some (if specialPorts.lookup (String.ofList scheme) = some (some n) then none else some n)
    else none

/-- Reads the host, the port and the path behind the slashes. -/
def hosted? (scheme : List Char) (special : Bool) (cs : List Char) : Option Address := do
  let written := authority special cs
  let (host, port) := hostAndPort (withoutCredentials written)
  guard !(host.isEmpty && (special || port.isSome || written.contains '@'))
  let host ← if special then lookedUpHost? host else opaqueHost? host
  let port ← port? scheme port
  let path := cs.drop written.length
  some
    { scheme
      host := some host
      port
      path := if path.isEmpty && !special then [] else absolutePath special path }

/-- An address of a path on a machine. -/
def localAddress (host : Option (List Char)) (cs : List Char) : Address where
  scheme := "file".toList
  host := host
  path := absolutePath true cs

/-- Reads a path on a machine, which is this one unless there is a host before it. -/
def local? (cs : List Char) : Option Address :=
  if 2 ≤ cs.length ∧ (cs.take 2).all (isSlash true) then
    let written := authority true (cs.drop 2)
    let path := (cs.drop 2).drop written.length
    if written.isEmpty then some (localAddress none path)
    else
      (lookedUpHost? written).map fun host =>
        localAddress (if host = "localhost".toList then none else some host) path
  else some (localAddress none cs)

/-- Reads an address. -/
def parse? (text : String) : Option Address := do
  let (scheme, rest) ← scheme? (clean text.toList)
  let special := isSpecial scheme
  let (rest, fragment) := cut '#' rest
  let (rest, query) := cut '?' rest
  let address ←
    if scheme = "file".toList then local? rest
    else if special then hosted? scheme true (rest.dropWhile (isSlash true))
    else
      match rest with
      | '/' :: '/' :: rest => hosted? scheme false rest
      | '/' :: rest => some { scheme, host := none, path := absolutePath false ('/' :: rest) }
      | rest => some { scheme, host := none, path := percentEncode isControl rest }
  some
    { address with
      query := query.map (percentEncode (inQuery special))
      fragment := fragment.map (percentEncode inFragment) }

namespace Address

/-- The address in writing. -/
def text (a : Address) : String :=
  let host := match a.host with
    | some host => "//".toList ++ host ++ (a.port.map fun n => ':' :: (toString n).toList).getD []
    | none =>
      if a.scheme = "file".toList then "//".toList
      else if "//".toList.isPrefixOf a.path then "/.".toList
      else []
  String.ofList (a.scheme ++ ':' :: host ++ a.path ++ (a.query.map ('?' :: ·)).getD [] ++
    (a.fragment.map ('#' :: ·)).getD [])

/-- Whether requests can be sent to the address: by its scheme, and because its host has no
characters that a request cannot name. -/
def isReachable (a : Address) : Bool :=
  (a.scheme = "http".toList || a.scheme = "https".toList) &&
    a.host.any fun host => host.all fun c =>
      c ≠ '"' && c.toNat ≠ 0x60 && c.toNat ≠ 0x7B && c.toNat ≠ 0x7D

end Address

end ContractConversion.Url
