import ContractConversion.Text.Utf8

/-!
# Files

The files that the program works with, as a list of files with their paths. A folder is there if it
was made or if something is in it. Paths are given as texts; a path that starts at the root is kept
apart from one that starts at the working folder.
-/

namespace ContractConversion

/-- The names on the way to a file. -/
abbrev Path : Type := List String

/-- A file. -/
structure File where
  path : Path
  content : List UInt8
  /-- When it was last written; later times are greater. -/
  modified : Nat := 0
  deriving DecidableEq, Repr

/-- What there is, and the folders that were made. -/
structure Files where
  files : List File := []
  folders : List Path := []
  deriving DecidableEq, Repr

/-- Why a path cannot be used. -/
inductive FileFault where
  | notFound
  | notFolder
  | isFolder
  | alreadyThere
  | notText
  | badName
  deriving DecidableEq, Repr

/-- The wording of the fault. -/
def FileFault.message : FileFault → String
  | notFound => "No such file or directory (os error 2)"
  | notFolder => "Not a directory (os error 20)"
  | isFolder => "Is a directory (os error 21)"
  | alreadyThere => "File exists (os error 17)"
  | notText => "stream did not contain valid UTF-8"
  | badName => "file name contained an unexpected NUL byte"

namespace Path

/-- Goes on from a path by one name. -/
def step (path : Path) (name : String) : Path :=
  if name = "" ∨ name = "." then path
  else if name = ".." then (if path = ["/"] then path else path.dropLast)
  else path ++ [name]

/-- The pieces between slashes of the characters that go on from `current`, which is given
backwards. -/
def pieces (current : List Char) : List Char → List String
  | [] => [String.ofList current.reverse]
  | '/' :: rest => String.ofList current.reverse :: pieces [] rest
  | c :: rest => pieces (c :: current) rest

/-- Where a text starts: at the root, or at the working folder. -/
def start (text : String) : Path :=
  if text.toList.head? = some '/' then ["/"] else []

/-- The path that a text stands for. -/
def ofText (text : String) : Path :=
  (pieces [] text.toList).foldl step (start text)

/-- The paths that are gone through from a path on. -/
def stages (path : Path) : List String → List Path
  | [] => []
  | name :: rest => path.step name :: stages (path.step name) rest

/-- Whether a text names a folder, whatever there is. -/
def namesFolder (text : String) : Bool :=
  match text.toList.reverse with
  | '/' :: _ | '.' :: '/' :: _ | '.' :: '.' :: '/' :: _ => true
  | _ => false

/-- The text of a name in a folder. -/
def join (folder name : String) : String :=
  if folder = "" then name
  else if folder.toList.getLast? = some '/' then folder ++ name
  else folder ++ "/" ++ name

/-- Drops slashes, and names that stay where they are, from the end of a text that is given
backwards. -/
def dropStays : List Char → List Char
  | '/' :: rest => dropStays rest
  | ['.'] => []
  | '.' :: '/' :: rest => dropStays rest
  | cs => cs

/-- The text of the folder that a path is in; it is empty for a name alone. -/
def parent (text : String) : String :=
  let above := (dropStays text.toList.reverse).dropWhile (· ≠ '/')
  let trimmed := above.dropWhile (· = '/')
  String.ofList (if trimmed.isEmpty then above.take 1 else trimmed.reverse)

/-- The last name of a file without its extension, and the extension. A name that starts with its
only dot has none. -/
def splitExtension (name : String) : String × Option String :=
  let backwards := name.toList.reverse
  let extension := backwards.takeWhile (· ≠ '.')
  let stem := (backwards.drop (extension.length + 1)).reverse
  if stem.isEmpty then (name, none)
  else (String.ofList stem, some (String.ofList extension.reverse))

end Path

/-- What is at a path. -/
inductive Entry where
  | file (file : File)
  | folder
  deriving Repr

namespace Files

/-- The file of a path. -/
def file? (fs : Files) (path : Path) : Option File :=
  fs.files.find? (·.path = path)

/-- Whether a folder is there. -/
def hasFolder (fs : Files) (path : Path) : Bool :=
  path.isEmpty || path = ["/"] || fs.folders.any (path.isPrefixOf ·) ||
    fs.files.any fun f => path.isPrefixOf f.path && path ≠ f.path

/-- Goes on from a path, name by name; what is gone on from has to be a folder. -/
def walk (fs : Files) (path : Path) : List String → Except FileFault Path
  | [] => .ok path
  | name :: rest =>
    if (fs.file? path).isSome then .error .notFolder
    else if fs.hasFolder path then fs.walk (path.step name) rest
    else .error .notFound

/-- What is at a path. -/
def find (fs : Files) (text : String) : Except FileFault Entry :=
  if text.toList.contains '\x00' then .error .badName
  else if text = "" then .error .notFound
  else do
    let path ← fs.walk (Path.start text) (Path.pieces [] text.toList)
    match fs.file? path with
    | some file => return .file file
    | none => if fs.hasFolder path then return .folder else throw .notFound

/-- Whether there is anything at a path. -/
def contains (fs : Files) (text : String) : Bool :=
  match fs.find text with
  | .ok _ => true
  | .error _ => false

/-- The bytes of a file. -/
def readBytes (fs : Files) (text : String) : Except FileFault (List UInt8) := do
  match ← fs.find text with
  | .file file => return file.content
  | .folder => throw .isFolder

/-- The text of a file. -/
def readText (fs : Files) (text : String) : Except FileFault String := do
  match Text.Utf8.strict? (← fs.readBytes text) with
  | some content => return content
  | none => throw .notText

/-- Puts a file in the place of the one of its path, or else at the end. -/
def put (file : File) : List File → List File
  | [] => [file]
  | f :: rest => if f.path = file.path then file :: rest else f :: put file rest

/-- The time after every time so far. -/
def nextTime (fs : Files) : Nat :=
  fs.files.foldl (fun time f => max time (f.modified + 1)) 0

/-- Writes a file; its folder has to be there. -/
def write (fs : Files) (text : String) (content : List UInt8) : Except FileFault Files :=
  let path := Path.ofText text
  match fs.find text with
  | .ok .folder => .error .isFolder
  | .ok (.file _) => .ok { fs with files := put ⟨path, content, fs.nextTime⟩ fs.files }
  | .error .notFound => do
    let folder ← fs.walk (Path.start text) (Path.pieces [] text.toList).dropLast
    if text = "" ∨ !fs.hasFolder path.dropLast then throw .notFound
    if Path.namesFolder text then throw .isFolder
    if !fs.hasFolder folder then throw .notFound
    return { fs with files := put ⟨path, content, fs.nextTime⟩ fs.files }
  | .error fault => .error fault

/-- Removes a file, if it is there. -/
def remove (fs : Files) (text : String) : Files :=
  { fs with files := fs.files.filter (·.path ≠ Path.ofText text) }

/-- Writes behind the end of a file, which need not be there. -/
def append (fs : Files) (text : String) (content : List UInt8) : Except FileFault Files :=
  match fs.readBytes text with
  | .ok before => fs.write text (before ++ content)
  | .error .notFound => fs.write text content
  | .error fault => .error fault

/-- Makes a folder and the folders on the way to it. -/
def makeFolders (fs : Files) (text : String) : Except FileFault Files :=
  match fs.find text with
  | .ok .folder => .ok fs
  | .ok (.file _) => .error .alreadyThere
  | .error .notFound =>
    if text = "" then .ok fs
    else
      let made := Path.stages (Path.start text) (Path.pieces [] text.toList)
      .ok { fs with folders := fs.folders ++ made }
  | .error fault => .error fault

/-- The names in a folder, each with the time of its last change. -/
def list (fs : Files) (text : String) : Except FileFault (List (String × Nat)) := do
  match ← fs.find text with
  | .file _ => throw .notFolder
  | .folder =>
    let path := Path.ofText text
    let within := fs.files.filterMap fun f =>
      if path.isPrefixOf f.path then ((f.path.drop path.length).head?).map (·, f.modified) else none
    let made := fs.folders.filterMap fun p =>
      if path.isPrefixOf p then ((p.drop path.length).head?).map (·, 0) else none
    return (within ++ made).foldl (fun names (name, time) =>
      match names.lookup name with
      | none => names ++ [(name, time)]
      | some _ => names.map fun (n, t) => if n = name then (n, max t time) else (n, t)) []

end Files

end ContractConversion
