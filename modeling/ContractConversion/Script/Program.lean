import ContractConversion.Files
import ContractConversion.Script.Pattern
import ContractConversion.Text.Lines
import ContractConversion.Text.Occurrence

/-!
# Small programs

The programs that scripts for validators are made of. Each gets its arguments, its input and the
files there are, and gives its output, its diagnostics, its exit code and the files after it.
-/

namespace ContractConversion.Script

/-- A string of bytes. -/
abbrev Bytes : Type := List UInt8

/-- What a program is called with. -/
structure Call where
  name : String
  arguments : List Bytes
  input : Bytes
  files : Files

/-- What a program does. -/
structure Effect where
  out : Bytes := []
  err : Bytes := []
  code : Nat := 0
  files : Files

namespace Call

/-- The arguments as texts. -/
def texts (c : Call) : List String :=
  c.arguments.map Text.Utf8.lossy

/-- The arguments that are no options. -/
def operands (c : Call) : List String :=
  c.texts.filter (!Text.isSwitch ·)

/-- Whether a letter is among the options. -/
def has (c : Call) (letter : Char) : Bool :=
  c.texts.any fun text => Text.isSwitch text && text.toList.contains letter

/-- Prints something and succeeds. -/
def prints (c : Call) (out : Bytes) : Effect :=
  { out, files := c.files }

/-- Ends with a code and a diagnostic. -/
def fails (c : Call) (code : Nat) (diagnostic : String) : Effect :=
  { err := Text.Utf8.encode diagnostic, code, files := c.files }

/-- Succeeds or fails without a word. -/
def decides (c : Call) (yes : Bool) : Effect :=
  { code := if yes then 0 else 1, files := c.files }

/-- What a device gives: nothing, or zeros, of which no script needs more than a mebibyte. -/
def device? (name : String) : Option Bytes :=
  if name = "/dev/null" then some []
  else if name = "/dev/zero" then some (List.replicate 1048576 0)
  else none

/-- The bytes of a file or a device. -/
def bytesOf (c : Call) (name : String) : Except FileFault Bytes :=
  match device? name with
  | some content => .ok content
  | none => c.files.readBytes name

/-- The contents of files, one after the other; of the input, if there are none. -/
def contents (c : Call) : List String → Except String Bytes
  | [] => .ok c.input
  | names => names.foldlM (fun before name =>
      match c.bytesOf name with
      | .ok content => .ok (before ++ content)
      | .error _ => .error (c.name ++ ": " ++ name ++ ": No such file or directory\n")) []

/-- Does something with the contents of files. -/
def reads (c : Call) (names : List String) (code : Nat) (act : Bytes → Effect) : Effect :=
  match c.contents names with
  | .ok content => act content
  | .error diagnostic => c.fails code diagnostic

end Call

/-- The value of octal digits. -/
def octal (digits : List Char) : UInt8 :=
  (digits.foldl (fun (n : Nat) d => n * 8 + (d.toNat - 0x30)) 0).toUInt8

/-- The octal digits at the front, three at most. -/
def octalDigits (cs : List Char) : List Char :=
  (cs.take 3).takeWhile fun c => '0' ≤ c && c ≤ '7'

/-- The byte of an escape that is a letter. -/
def escapeOf? : Char → Option UInt8
  | 'n' => some 10
  | 't' => some 9
  | 'r' => some 13
  | 'a' => some 7
  | 'b' => some 8
  | 'f' => some 12
  | 'v' => some 11
  | '\\' => some 0x5C
  | _ => none

/-- The bytes of a text with escapes. A number starts with a zero, or with any octal digit in a
format. -/
def unescape (format : Bool) : Nat → List Char → Bytes
  | 0, _ | _, [] => []
  | fuel + 1, '\\' :: c :: rest =>
    match escapeOf? c with
    | some b => b :: unescape format fuel rest
    | none =>
      if format then
        let digits := octalDigits (c :: rest)
        if digits.isEmpty then
          Text.Utf8.encode (String.ofList ['\\', c]) ++ unescape format fuel rest
        else octal digits :: unescape format fuel ((c :: rest).drop digits.length)
      else if c = '0' then
        let digits := octalDigits rest
        octal digits :: unescape format fuel (rest.drop digits.length)
      else Text.Utf8.encode (String.ofList ['\\', c]) ++ unescape format fuel rest
  | fuel + 1, c :: rest => String.utf8EncodeChar c ++ unescape format fuel rest

/-- The characters of bytes. -/
def characters (bytes : Bytes) : List Char :=
  (Text.Utf8.lossy bytes).toList

/-- A format filled in with arguments, and the arguments that are left. -/
def fill : Nat → List Char → List Bytes → Bytes × List Bytes
  | 0, _, arguments | _, [], arguments => ([], arguments)
  | fuel + 1, '%' :: '%' :: rest, arguments =>
    let (out, left) := fill fuel rest arguments
    (0x25 :: out, left)
  | fuel + 1, '%' :: c :: rest, arguments =>
    let argument := arguments.headD []
    let shown := match c with
      | 'b' => let cs := characters argument; unescape false (cs.length + 1) cs
      | 'd' => if argument.isEmpty then [0x30] else argument
      | 'c' => argument.take 1
      | _ => argument
    let (out, left) := fill fuel rest (arguments.drop 1)
    (shown ++ out, left)
  | fuel + 1, cs, arguments =>
    let piece := cs.takeWhile (· ≠ '%')
    let (out, left) := fill fuel (cs.drop piece.length) arguments
    (unescape true (piece.length + 1) piece ++ out, left)

/-- A format filled in again and again until no arguments are left. -/
def fillAll (format : List Char) : Nat → List Bytes → Bytes
  | 0, _ => []
  | fuel + 1, arguments =>
    let (out, left) := fill (format.length + 1) format arguments
    if left.isEmpty || left.length = arguments.length then out else out ++ fillAll format fuel left

/-- The lines of bytes, each with its line break. -/
def byteLines (bytes : Bytes) : List Bytes :=
  (Text.lines (Text.Utf8.lossy bytes)).map fun line => Text.Utf8.encode line ++ [10]

/-- The number of words in a text. -/
def wordCount (cs : List Char) : Nat :=
  (cs.foldl (fun (count, inside) c =>
    if c.isWhitespace then (count, false) else (if inside then count else count + 1, true))
    (0, false)).1

/-- The last name of a path. -/
def lastName (path : String) : String :=
  String.ofList (path.toList.reverse.takeWhile (· ≠ '/')).reverse

/-- The number behind an option, if it is given, and the operands. -/
def numbered : List String → Option (Bool × Nat) × List String
  | "-c" :: n :: rest => (some (true, n.toNat?.getD 0), rest)
  | "-n" :: n :: rest => (some (false, n.toNat?.getD 0), rest)
  | text :: rest =>
    match text.toList with
    | '-' :: 'c' :: n => (some (true, (String.ofList n).toNat?.getD 0), rest)
    | '-' :: 'n' :: n => (some (false, (String.ofList n).toNat?.getD 0), rest)
    | '-' :: n => (some (false, (String.ofList n).toNat?.getD 10), rest)
    | _ => (none, text :: rest)
  | [] => (none, [])

/-- The condition that `test` decides. -/
def condition (files : Files) : List String → Bool
  | "!" :: rest => !condition files rest
  | [a, "=", b] => a = b
  | [a, "!=", b] => a ≠ b
  | [a, "-eq", b] => a.toInt? = b.toInt?
  | [a, "-ne", b] => a.toInt? ≠ b.toInt?
  | [a, "-gt", b] => b.toInt?.getD 0 < a.toInt?.getD 0
  | [a, "-lt", b] => a.toInt?.getD 0 < b.toInt?.getD 0
  | [a, "-ge", b] => b.toInt?.getD 0 ≤ a.toInt?.getD 0
  | [a, "-le", b] => a.toInt?.getD 0 ≤ b.toInt?.getD 0
  | ["-e", path] | ["-r", path] => files.contains path
  | ["-f", path] => (files.readBytes path).toBool
  | ["-s", path] => ((files.readBytes path).toOption.getD []).length ≠ 0
  | ["-d", path] => files.contains path && !(files.readBytes path).toBool
  | ["-n", text] => text ≠ ""
  | ["-z", text] => text = ""
  | [text] => text ≠ ""
  | _ => false

/-- A program. -/
abbrev Program : Type := Call → Effect

namespace Program

def echo : Program := fun c =>
  let (arguments, newline) : List Bytes × Bytes := match c.texts with
    | "-n" :: _ => (c.arguments.drop 1, [])
    | _ => (c.arguments, [10])
  let shown := arguments.map fun a =>
    if a.contains 0x5C then let cs := characters a; unescape false (cs.length + 1) cs else a
  c.prints (List.intercalate [0x20] shown ++ newline)

def printf : Program := fun c =>
  match c.arguments with
  | [] => c.fails 2 "printf: usage: printf format [arg ...]\n"
  | format :: rest => c.prints (fillAll (characters format) (rest.length + 1) rest)

def cat : Program := fun c =>
  c.reads c.operands 1 c.prints

def wc : Program := fun c =>
  c.reads c.operands 1 fun content =>
    let count :=
      if c.has 'c' then content.length
      else if c.has 'm' then (characters content).length
      else if c.has 'l' then content.count 10
      else wordCount (characters content)
    let names := String.join (c.operands.map (" " ++ ·))
    c.prints (Text.Utf8.encode (toString count ++ names ++ "\n"))

/-- The characters that an argument of `tr` stands for. -/
def charactersOf (text : String) : List Char :=
  (ranges (characters (unescape true (text.length + 1) text.toList))).flatMap fun (a, b) =>
    (List.range (b.toNat - a.toNat + 1)).map fun i => Char.ofNat (a.toNat + i)

def tr : Program := fun c =>
  let set := charactersOf (c.operands.headD "")
  let images := charactersOf ((c.operands.drop 1).headD "")
  let out := (characters c.input).filterMap fun x =>
    match set.idxOf? x with
    | none => some x
    | some i => if c.has 'd' then none else images[i]?.or images.getLast?
  c.prints (Text.Utf8.encode (String.ofList out))

/-- `head`, or `tail` if `last`. -/
def portion (last : Bool) : Program := fun c =>
  let (number, operands) := numbered c.texts
  c.reads operands 1 fun content =>
    let (bytes, n) := number.getD (false, 10)
    let pieces := if bytes then content.map ([·]) else byteLines content
    c.prints (if last then pieces.drop (pieces.length - n) else pieces.take n).flatten

def grep : Program := fun c =>
  match c.operands with
  | [] => c.fails 2 "grep: no pattern\n"
  | sought :: names =>
    c.reads names 2 fun content =>
      let lower := fun (cs : List Char) => if c.has 'i' then cs.map Char.toLower else cs
      let found := fun (line : Bytes) =>
        let cs := lower ((characters line).filter (· ≠ '\n'))
        if c.has 'F' then Text.occursAmong (lower sought.toList) cs
        else
          let expressions := if c.has 'E' then sought.toList.splitOn '|' else [sought.toList]
          expressions.any fun expression => accepts (ofExpression (lower expression)) cs
      let hits := (byteLines content).zipIdx.filter fun (line, _) => found line != c.has 'v'
      let out :=
        if c.has 'q' then []
        else if c.has 'c' then Text.Utf8.encode (toString hits.length ++ "\n")
        else if c.has 'n' then
          hits.flatMap fun (line, i) => Text.Utf8.encode (toString (i + 1) ++ ":") ++ line
        else hits.flatMap (·.1)
      { c.prints out with code := if hits.isEmpty then 1 else 0 }

def test : Program := fun c =>
  c.decides (condition c.files (if c.name = "[" then c.texts.dropLast else c.texts))

def basename : Program := fun c =>
  let name := lastName (c.operands.headD "")
  let ending := (c.operands.drop 1).headD ""
  let shown := if name ≠ ending ∧ name.endsWith ending then
      String.ofList (name.toList.take (name.length - ending.length))
    else name
  c.prints (Text.Utf8.encode (shown ++ "\n"))

def dirname : Program := fun c =>
  let parent := Path.parent (c.operands.headD "")
  c.prints (Text.Utf8.encode ((if parent = "" then "." else parent) ++ "\n"))

def rm : Program := fun c =>
  match c.operands.find? (!c.files.contains ·) with
  | some name =>
    if c.has 'f' then { files := c.operands.foldl Files.remove c.files }
    else c.fails 1 ("rm: cannot remove '" ++ name ++ "': No such file or directory\n")
  | none => { files := c.operands.foldl Files.remove c.files }

def touch : Program := fun c =>
  { files := c.operands.foldl (fun files name => (files.append name []).toOption.getD files)
      c.files }

def cp : Program := fun c =>
  match c.operands with
  | [source, target] =>
    c.reads [source] 1 fun content =>
      { files := (c.files.write target content).toOption.getD c.files }
  | _ => c.decides false

def seq : Program := fun c =>
  let (first, last) := match c.operands with
    | [last] => ("1", last)
    | first :: last :: _ => (first, last)
    | [] => ("1", "0")
  let start := first.toNat?.getD 1
  let numbers := List.range' start (last.toNat?.getD 0 + 1 - start)
  c.prints (Text.Utf8.encode (String.join (numbers.map fun n => toString n ++ "\n")))

/-- `yes`, as often as any script needs it. -/
def yes : Program := fun c =>
  let line := Text.Utf8.encode ((c.operands.headD "y") ++ "\n")
  c.prints (List.replicate 131072 line).flatten

def ls : Program := fun c =>
  match c.files.list (c.operands.headD ".") with
  | .error _ =>
    c.fails 2 ("ls: cannot access '" ++ c.operands.headD "" ++ "': No such file or directory\n")
  | .ok entries =>
    let names := (entries.map (·.1)).mergeSort fun a b => a ≤ b
    c.prints (Text.Utf8.encode (String.join (names.map (· ++ "\n"))))

def sort : Program := fun c =>
  c.reads c.operands 2 fun content =>
    let lines := (Text.lines (Text.Utf8.lossy content)).mergeSort fun a b => a ≤ b
    c.prints (Text.Utf8.encode (String.join (lines.map (· ++ "\n"))))

/-- All programs by their names. -/
def all : List (String × Program) :=
  [("true", (·.decides true)), ("false", (·.decides false)), ("sleep", (·.decides true)),
    ("echo", echo), ("printf", printf), ("cat", cat), ("wc", wc), ("tr", tr),
    ("head", portion false), ("tail", portion true), ("grep", grep), ("test", test), ("[", test),
    ("basename", basename), ("dirname", dirname), ("rm", rm), ("touch", touch), ("cp", cp),
    ("seq", seq), ("yes", yes), ("ls", ls), ("sort", sort)]

/-- The name of a program without the folder of programs. -/
def plainName (name : String) : String :=
  match name.toList with
  | '/' :: 'b' :: 'i' :: 'n' :: '/' :: rest => String.ofList rest
  | '/' :: 'u' :: 's' :: 'r' :: '/' :: 'b' :: 'i' :: 'n' :: '/' :: rest => String.ofList rest
  | _ => name

/-- The program of a name. -/
def ofName? (name : String) : Option Program :=
  all.lookup (plainName name)

end Program

end ContractConversion.Script
