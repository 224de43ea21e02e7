import VisibleText.Command.Arguments
import VisibleText.Config
import VisibleText.Discovery.Scan
import VisibleText.Exclusion.Files
import VisibleText.Extraction

namespace VisibleText

open Command (ExtractOptions)

namespace Config

def override (c : Config) (o : ExtractOptions) : Config :=
  { c with
    pattern := o.pattern.getD c.pattern
    ignores := c.ignores ++ o.excludes
    minBytes := o.minBytes.getD c.minBytes
    contextLines := o.contextLines.getD c.contextLines
    splitThreshold := o.splitThreshold.or c.splitThreshold
    scanTemplates := c.scanTemplates && !o.noTemplates
    scanScripts := c.scanScripts || o.scripts }

end Config

structure Search where
  config : Config
  root : Path
  files : List SourceFile
  dictionary : Exclusion.Dictionary

inductive SearchError where
  | inaccessible (dir : Path) (error : FileError)
  | configuration (error : Config.LoadError)
  | invalid (error : Config.Invalid)
  | dictionary (error : Exclusion.Unreadable)
  | pattern (text : String) (error : Discovery.PatternError)
deriving DecidableEq, Repr, Inhabited

namespace SearchError

def message : SearchError → String
  | inaccessible dir e => "Cannot access directory: " ++ dir.text ++ ": " ++ e.message
  | configuration e => e.message
  | invalid e => e.message
  | dictionary e => e.message
  | pattern text e => "Invalid file pattern '" ++ text ++ "': " ++ e.message

end SearchError

namespace Search

abbrev Setup := ExceptT SearchError (StateM String)

namespace Setup

def say (message : String) : Setup Unit := modify (· ++ message)

def require {ε α : Type} (cause : ε → SearchError) : Except ε α → Setup α
  | .ok a => pure a
  | .error e => throw (cause e)

end Setup

open Setup

def dictionaryPaths (base : Path) (c : Config) (o : ExtractOptions) : List Path :=
  c.exclusionDicts.map (fun d => base.join ⟨d⟩) ++ o.exclusionDicts

def skippedWarning (color verbose : Bool) (count : Nat) : String :=
  if count = 0 then ""
  else Report.warning color ++ toString count ++ " path(s) skipped due to access errors"
    ++ (if verbose then "" else " (use -v for details)") ++ "\n"

def prepare (e : Engines) (fs : FileSystem) (color : Bool) (o : ExtractOptions) : Setup Search := do
  let root ← require (.inaccessible o.dir) (fs.canonical o.dir)
  let loaded ← require .configuration (Config.load fs root)
  if o.verbose && loaded.path.isNone then
    say (Report.note color ++ "No " ++ Config.fileName ++ " found, using default configuration\n")
  let config := loaded.config.override o
  require .invalid config.validate
  let base := loaded.baseDir?.getD root
  let dictionary ← require .dictionary
    ((Exclusion.Dictionary.builtIn e).appendFiles e fs (dictionaryPaths base config o))
  if o.verbose then
    say (Report.note color ++ toString dictionary.size ++ " exclusion rule(s) loaded\n")
  let found ← require (.pattern config.pattern)
    (Discovery.scan fs color o.verbose root config.pattern config.ignores)
  say (found.messages ++ skippedWarning color o.verbose found.skipped)
  return ⟨config, root, found.files, dictionary⟩

def extract (e : Engines) (s : Search) (fs : FileSystem) : Except Fault Extraction :=
  Extraction.run e fs s.dictionary s.config.scanOptions s.files

end Search

end VisibleText
