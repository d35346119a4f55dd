import ContractConversion.CommandLine.Run

/-!
# The program

The outer layer reads what a command line can refer to, carries the command out, writes what is new,
and prints. It has no network: no server can be reached, and none can be run.
-/

namespace ContractConversion.Program

/-- The variables that the program itself asks for. -/
def known : List String :=
  CommandLine.serverVariable :: Configuration.overrides.map (·.name)

/-- The words of a text that can be names of variables. -/
def words (current : List Char) : List Char → List String
  | [] => if current.isEmpty then [] else [String.ofList current.reverse]
  | c :: rest =>
    if c.isAlphanum || c = '_' then words (c :: current) rest
    else if current.isEmpty then words [] rest
    else String.ofList current.reverse :: words [] rest

/-- Adds what is at a path, a folder without what is in it. -/
def look (fs : Files) (path : Path) : IO Files := do
  let place := (← IO.currentDir) / "/".intercalate path
  if ← place.isDir then
    return { fs with folders := fs.folders ++ [path] }
  if ← place.pathExists then
    let time := (← place.metadata).modified
    let file : File :=
      { path
        content := (← IO.FS.readBinFile place).toList
        modified := time.sec.toNat * 1000000000 + time.nsec.toNat }
    return { fs with files := Files.put file fs.files }
  return fs

/-- Adds what is on the way to a path and at it. -/
def lookAlong (fs : Files) (text : String) : IO Files :=
  (Path.stages (Path.start text) (Path.pieces [] text.toList)).foldlM look fs

/-- Adds what is at a path and in the folder there. -/
def lookInto (fs : Files) (text : String) : IO Files := do
  let fs ← lookAlong fs text
  let place := (← IO.currentDir) / text
  if text ≠ "" && (← place.isDir) then
    (← place.readDir).foldlM (fun fs entry => lookAlong fs (Path.join text entry.fileName)) fs
  else return fs

/-- The variables that are set, among those that can matter. -/
def environment (fs : Files) : IO Environment := do
  let text := (fs.readText CommandLine.environmentFile).toOption.getD ""
  (known ++ words [] text.toList).foldlM (fun set name => do
    match ← IO.getEnv name with
    | some value => return set ++ [(name, value)]
    | none => return set) []

/-- Adds the files that an invocation works with. -/
def lookFor (fs : Files) (environment : Environment) (invocation : CommandLine.Invocation) :
    IO Files := do
  let path := invocation.config.getD Configuration.fileName
  let fs ← lookAlong fs path
  match Configuration.resolve fs path fun name => environment.lookup name with
  | .error _ => return fs
  | .ok c =>
    let fs ← lookInto fs c.audit.dir
    let fs ← match c.logging.dir with
      | some folder => lookAlong fs folder
      | none => pure fs
    match invocation.command with
    | .convert file _ _ => lookAlong fs file
    | _ => return fs

/-- What a command line finds. -/
def surroundings (arguments : List String) : IO CommandLine.Surroundings := do
  let fs ← lookAlong {} CommandLine.environmentFile
  let s : CommandLine.Surroundings :=
    { environment := ← environment fs
      files := fs
      listen := fun _ _ => .error "Network is unreachable (os error 101)"
      fetch := fun _ => .unreachable }
  match CommandLine.parse none arguments with
  | .error _ => return s
  | .ok invocation => return { s with files := ← lookFor fs s.fullEnvironment invocation }

/-- Writes what a command changed. -/
def save (before after : Files) : IO Unit := do
  for folder in after.folders do
    if folder ∉ before.folders then IO.FS.createDirAll ("/".intercalate folder)
  for file in after.files do
    if file ∉ before.files then
      IO.FS.writeBinFile ("/".intercalate file.path) (ByteArray.mk file.content.toArray)

end ContractConversion.Program

open ContractConversion in
/-- Runs a command line. -/
def main (arguments : List String) : IO UInt32 := do
  let s ← Program.surroundings arguments
  let outcome := CommandLine.run s arguments
  Program.save s.files outcome.files
  IO.print outcome.outputText
  IO.eprint outcome.errorText
  return outcome.ending.code.toUInt32
