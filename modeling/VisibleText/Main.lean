import VisibleText.Command.Run
import VisibleText.Engines.Own

/-!
The program. It looks at the part of the disk that a command can reach, runs the command on what it
has seen, and writes back the files that have changed.
-/
namespace VisibleText.Disk

def namesOf (path : String) : List String := (path.splitOn "/").filter (!·.isEmpty)

def place (names : List String) : IO.FS.DirEntry := ⟨"/", "/".intercalate names⟩

def kindAt (names : List String) : IO (Option IO.FS.FileType) := do
  try return some (← (place names).path.symlinkMetadata).type
  catch _ => return none

def failure : IO.Error → FileError
  | .noFileOrDirectory _ _ _ => .notFound
  | .permissionDenied _ code details => .system (details ++ " (os error " ++ toString code ++ ")")
  | e => .system (toString e)

def readAt (names : List String) : IO (Except FileError Bytes) := do
  try return .ok (← IO.FS.readBinFile (place names).path).toList
  catch e => return .error (failure e)

def namesIn (names : List String) : IO (List String) := do
  try return ((← (place names).path.readDir).map (·.fileName)).toList
  catch _ => return []

def targetOf (names : List String) : IO (Option (List String)) := do
  try return some (namesOf (← IO.FS.realPath (place names).path).toString)
  catch _ => return none

def extend (tree e : Entry) (names : List String) : Entry :=
  if (tree.get? names).isSome then tree else tree.set e names

partial def explore (tree : Entry) (names : List String) : IO Entry := do
  match ← kindAt names with
  | some .dir =>
    let mut tree := extend tree (.directory []) names
    for name in ← namesIn names do
      tree ← explore tree (names ++ [name])
    return tree
  | some .symlink => return extend tree (.link "/") names
  | some _ =>
    let isSource := (FileKind.ofPath? (FileSystem.absolute names)).isSome
    let content ← if isSource then readAt names else pure (.ok [])
    return extend tree (.file content) names
  | none => return tree

partial def follow (tree : Entry) (here : List String) : List String → IO (Entry × List String)
  | [] => return (tree, here)
  | "." :: rest => follow tree here rest
  | ".." :: rest => follow tree here.dropLast rest
  | name :: rest => do
    let next := here ++ [name]
    match ← kindAt next with
    | some .dir => follow (extend tree (.directory []) next) next rest
    | some .symlink =>
      match ← targetOf next with
      | some target =>
        let tree := tree.set (.link (FileSystem.absolute target).text) next
        let (tree, there) ← follow tree [] target
        follow tree there rest
      | none => return (tree.set (.link (FileSystem.absolute next).text) next, next)
    | some _ => return (tree.set (.file (← readAt next)) next, next)
    | none => return (tree, next)

/-- The files with what a path leads to. -/
def observe (fs : FileSystem) (p : Path) : IO (FileSystem × List String) := do
  let (tree, there) ← follow fs.root (if p.isAbsolute then [] else fs.workingDir) (FileSystem.steps p)
  return ({ fs with root := tree }, there)

def observeBeside (fs : FileSystem) (names : List String) : IO FileSystem := do
  let stem := ((FileSystem.absolute names).stem?).getD ""
  let mut fs := fs
  for name in ← namesIn names.dropLast do
    if name.startsWith stem then
      fs := (← observe fs (FileSystem.absolute (names.dropLast ++ [name]))).1
  return fs

def start : IO FileSystem := do
  let here := namesOf (← IO.FS.realPath (← IO.currentDir)).toString
  return (← observe ⟨.directory [], here⟩ (FileSystem.absolute here)).1

def observeSearch (fs : FileSystem) (o : Command.ExtractOptions) : IO FileSystem := do
  let mut (fs, root) ← observe fs o.dir
  fs := { fs with root := ← explore fs.root root }
  for depth in List.range (root.length + 1) do
    for name in [Config.fileName, ".git"] do
      fs := (← observe fs (FileSystem.absolute (root.take depth ++ [name]))).1
  if let .ok loaded := Config.load fs (FileSystem.absolute root) then
    let base := loaded.baseDir?.getD (FileSystem.absolute root)
    for p in Search.dictionaryPaths base loaded.config o do
      fs := (← observe fs p).1
  if let some p := o.output then
    let (seen, there) ← observe fs p
    fs ← observeBeside seen there
  return fs

partial def directories (at_ : List String) : Entry → List (List String)
  | .directory entries => at_ :: entries.flatMap fun (name, e) => directories (at_ ++ [name]) e
  | _ => []

def apply (before after : FileSystem) : IO Unit := do
  for d in directories [] after.root do
    if (before.root.get? d).isNone then IO.FS.createDirAll (place d).path
  for (names, content) in after.root.files [] do
    match before.root.get? names with
    | some (.file (.ok old)) => if old ≠ content then IO.FS.writeBinFile (place names).path ⟨content.toArray⟩
    | _ => IO.FS.writeBinFile (place names).path ⟨content.toArray⟩

def usageText : Command.UsageError → String
  | .displayHelp => Command.description
  | .displayVersion => "i18n-refactor 0.3.0\n"
  | .unknownArgument => "error: unexpected argument found\n"
  | .invalidValue => "error: a value is missing or invalid\n"
  | .valueValidation => "error: a value is not a number\n"
  | .argumentConflict => "error: an argument cannot be used multiple times\n"
  | .tooManyValues => "error: unexpected value found for a flag\n"
  | .invalidSubcommand => "error: unrecognized subcommand\n"

def wantsColor : IO Bool := do
  return (← IO.getEnv "NO_COLOR").isNone && (← (← IO.getStdout).isTty)

def run (request : Command.Request) : IO UInt32 := do
  let fs ← start
  let fs ← match request with
    | .describe => pure fs
    | .init => pure (← observe fs ⟨Config.fileName⟩).1
    | .extract o => observeSearch fs o
  let outcome := Command.run .own fs (← wantsColor) request
  apply fs outcome.files
  IO.print outcome.stdout
  IO.eprint outcome.stderr
  return outcome.exitCode.toUInt32

end VisibleText.Disk

open VisibleText in
def main (args : List String) : IO UInt32 := do
  match Command.Request.parse args with
  | .error e =>
    if e.exitCode = 0 then IO.print (Disk.usageText e) else IO.eprint (Disk.usageText e)
    return e.exitCode.toUInt32
  | .ok request =>
    try Disk.run request
    catch e =>
      IO.eprintln ("Error: " ++ toString e)
      return 2
