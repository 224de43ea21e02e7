import VisibleText.Command.Arguments
import VisibleText.Record.Output
import VisibleText.Record.Report
import VisibleText.Search

namespace VisibleText.Command

structure Outcome where
  exitCode : Nat := 0
  stdout : String := ""
  stderr : String := ""
  files : FileSystem
deriving Repr, Inhabited

def description : String :=
  "A fast CLI tool for finding hardcoded, user-facing text in Laravel Blade and PHP sources

Usage: i18n-refactor [COMMAND]

Commands:
  extract  Extract hardcoded strings from Blade templates and PHP files
  init     Initialize a new .i18nrc.json configuration file
  help     Print this message or the help of the given subcommand(s)

Options:
  -h, --help     Print help
  -V, --version  Print version
"

def failed (files : FileSystem) (told message : String) : Outcome :=
  { exitCode := 2, stderr := told ++ "Error: " ++ message ++ "\n", files }

def crashed (files : FileSystem) (told : String) : Outcome := { exitCode := 101, stderr := told, files }

def runInit (fs : FileSystem) (color : Bool) : Outcome :=
  let path : Path := ⟨Config.fileName⟩
  if fs.doesExist path then failed fs "" (Config.fileName ++ " already exists")
  else
    match fs.write path (utf8 (Config.default.toJson.render ++ "\n").toList) with
    | .ok files => { stdout := Report.success color ("Created " ++ Config.fileName), files }
    | .error e => failed fs "" ("Failed to write " ++ Config.fileName ++ ": " ++ e.message)

def deliver (fs : FileSystem) (color : Bool) (o : ExtractOptions) (c : Config) (told : String)
    (records : List Record) : Except Outcome Outcome :=
  match o.output, o.format with
  | some path, _ =>
    match Record.write fs path c.splitThreshold records with
    | (.ok paths, files) =>
      .ok { stderr := told ++ Report.written color (paths.map Path.text) records.length, files }
    | (.error message, files) => .error (failed files told message)
  | none, .json => .ok { stdout := Record.render records, stderr := told, files := fs }
  | none, .text => .ok { stdout := Report.render color c.contextLines records, stderr := told, files := fs }

def runExtract (e : Engines) (fs : FileSystem) (color : Bool) (o : ExtractOptions) : Outcome :=
  if o.output.isSome ∧ o.format = .text then
    failed fs "" "--output writes JSON; it cannot be combined with --format text"
  else
    match (Search.prepare e fs color o).run.run "" with
    | (.error x, told) => failed fs told x.message
    | (.ok search, told) =>
      match search.extract e fs with
      | .error _ => crashed fs told
      | .ok found =>
        let records := sortByText found.records
        let told := told ++ (if o.verbose then found.warnings color else "")
        match deliver fs color o search.config told records with
        | .error outcome => outcome
        | .ok outcome =>
          { outcome with
            stderr := outcome.stderr
              ++ Report.summary color o.verbose found.processed records found.failures.length }

def run (e : Engines) (fs : FileSystem) (color : Bool) : Request → Outcome
  | .describe => { stdout := description, files := fs }
  | .init => runInit fs color
  | .extract o => runExtract e fs color o

end VisibleText.Command
