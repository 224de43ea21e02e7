import VisibleText.Discovery.Pattern
import VisibleText.FileSystem.Basic
import VisibleText.Json.Reader
import VisibleText.Json.Value
import VisibleText.Source

namespace VisibleText

structure Config where
  pattern : String
  ignores : List String
  exclusionDicts : List String
  checkedAttributes : List String
  minBytes : Nat
  contextLines : Nat
  splitThreshold : Option Nat
  scanTemplates : Bool
  scanScripts : Bool
deriving DecidableEq, Repr, Inhabited

namespace Config

def default : Config where
  pattern := "**/*.php"
  ignores := ["vendor", "node_modules", "storage", ".git"]
  exclusionDicts := []
  checkedAttributes := ["placeholder", "title", "alt", "value", "aria-label", "aria-description",
    "aria-placeholder", "data-title"]
  minBytes := 2
  contextLines := 5
  splitThreshold := none
  scanTemplates := true
  scanScripts := false

def scanOptions (c : Config) : ScanOptions :=
  ⟨c.minBytes, c.contextLines, c.scanTemplates, c.scanScripts, c.checkedAttributes⟩

def toJson (c : Config) : Json.Value :=
  .object [("pattern", .string c.pattern), ("ignores", .array (c.ignores.map .string)),
    ("exclusionDicts", .array (c.exclusionDicts.map .string)),
    ("checkedAttributes", .array (c.checkedAttributes.map .string)),
    ("minBytes", .number c.minBytes), ("contextLines", .number c.contextLines),
    ("splitThreshold", match c.splitThreshold with
      | some n => .number n
      | none => .null),
    ("scanTemplates", .bool c.scanTemplates), ("scanScripts", .bool c.scanScripts)]

open Json (Reader)
open Json.Reader

inductive Key where
  | pattern
  | ignores
  | exclusionDicts
  | checkedAttributes
  | minBytes
  | contextLines
  | splitThreshold
  | scanTemplates
  | scanScripts
deriving DecidableEq, Repr, Inhabited

namespace Key

def all : List Key :=
  [pattern, ignores, exclusionDicts, checkedAttributes, minBytes, contextLines, splitThreshold,
    scanTemplates, scanScripts]

def name : Key → String
  | pattern => "pattern"
  | ignores => "ignores"
  | exclusionDicts => "exclusionDicts"
  | checkedAttributes => "checkedAttributes"
  | minBytes => "minBytes"
  | contextLines => "contextLines"
  | splitThreshold => "splitThreshold"
  | scanTemplates => "scanTemplates"
  | scanScripts => "scanScripts"

def ofName? (s : String) : Option Key := all.find? fun k => k.name = s

end Key

def readMember (c : Config) : Key → Reader Config
  | .pattern => do return { c with pattern := ← readString }
  | .ignores => do return { c with ignores := ← readList readString }
  | .exclusionDicts => do return { c with exclusionDicts := ← readList readString }
  | .checkedAttributes => do return { c with checkedAttributes := ← readList readString }
  | .minBytes => do return { c with minBytes := ← readNat }
  | .contextLines => do return { c with contextLines := ← readNat }
  | .splitThreshold => do return { c with splitThreshold := ← readOption readNat }
  | .scanTemplates => do return { c with scanTemplates := ← readBool }
  | .scanScripts => do return { c with scanScripts := ← readBool }

def repeatedMember {α : Type} (k : Key) : Reader α := do
  if (← skipSpace) == some (byte '\x7d') then drop 1
  fail (.shape ("duplicate field `" ++ k.name ++ "`"))

def readMembers : Nat → Bool → List Key → Config → Reader Config
  | 0, _, _, _ => fail .endOfObject
  | fuel + 1, fresh, seen, c => do
    match ← nextKey fresh with
    | none =>
      drop 1
      return c
    | some name =>
      match Key.ofName? name with
      | none =>
        colon
        pass
        readMembers fuel false seen c
      | some k =>
        if seen.contains k then repeatedMember k
        else
          colon
          readMembers fuel false (k :: seen) (← readMember c k)

def readPositions (fresh : Bool) (c : Config) : List Key → Reader Config
  | [] => do
    endList
    return c
  | k :: ks => do
    if ← moreItems fresh then readPositions false (← readMember c k) ks
    else
      drop 1
      return c

def reader : Reader Config := do
  let b ← first
  let c ←
    if b == byte '\x7b' then
      drop 1
      readMembers ((← get).rest.length + 1) true [] default
    else if b == byte '[' then
      drop 1
      readPositions true default Key.all
    else unexpected "struct Config"
  finish
  return c

def parse (document : Bytes) : Except Json.ReadError Config :=
  match reader.run ⟨0, document⟩ with
  | .ok (c, _) => .ok c
  | .error e => .error e

inductive Invalid where
  | contextLines (n : Nat)
  | splitThreshold
  | pattern (text : String) (error : Discovery.PatternError)
  | ignore (text : String) (error : Discovery.PatternError)
deriving DecidableEq, Repr, Inhabited

namespace Invalid

def message : Invalid → String
  | contextLines n =>
    "Invalid 'contextLines': " ++ toString n ++ " (must be an odd number, or 0 to disable context)"
  | splitThreshold => "Invalid 'splitThreshold': must be at least 1"
  | pattern text e => "Invalid glob pattern in 'pattern': \"" ++ text ++ "\": " ++ e.message
  | ignore text e => "Invalid glob pattern in 'ignores': \"" ++ text ++ "\": " ++ e.message

end Invalid

def checkIgnores : List String → Except Invalid Unit
  | [] => .ok ()
  | entry :: rest =>
    match Discovery.Pattern.parse entry with
    | .ok _ => checkIgnores rest
    | .error e => .error (.ignore entry e)

def validate (c : Config) : Except Invalid Unit := do
  if c.contextLines % 2 = 0 && c.contextLines ≠ 0 then throw (.contextLines c.contextLines)
  if c.splitThreshold = some 0 then throw .splitThreshold
  match Discovery.Pattern.parse c.pattern with
  | .ok _ => pure ()
  | .error e => throw (.pattern c.pattern e)
  checkIgnores c.ignores

def fileName : String := ".i18nrc.json"

/-- The path of the configuration that holds for a directory: the nearest one in it or above it, but
not above the top of its repository. At most `depth` directories are tried. -/
def findFrom (fs : FileSystem) : Nat → Path → Option Path
  | 0, _ => none
  | depth + 1, dir =>
    let file := dir.join ⟨fileName⟩
    if fs.doesExist file then some file
    else if fs.doesExist (dir.join ⟨".git"⟩) then none
    else
      match dir.parent? with
      | some above => findFrom fs depth above
      | none => none

def find? (fs : FileSystem) (dir : Path) : Option Path :=
  findFrom fs (dir.text.length + 1) dir

structure Loaded where
  config : Config
  path : Option Path
deriving DecidableEq, Repr, Inhabited

namespace Loaded

def baseDir? (l : Loaded) : Option Path := l.path.bind Path.parent?

end Loaded

inductive LoadError where
  | unreadable (path : Path) (error : FileError)
  | malformed (path : Path) (message : String)
  | invalid (error : Invalid)
deriving DecidableEq, Repr, Inhabited

namespace LoadError

def message : LoadError → String
  | unreadable p e => "Failed to read config file: " ++ quoted p.text ++ ": " ++ e.message
  | malformed p m => "Failed to parse config file: " ++ quoted p.text ++ ": " ++ m
  | invalid e => e.message

end LoadError

def loadFile (fs : FileSystem) (p : Path) : Except LoadError Config :=
  match fs.readText p with
  | .error e => .error (.unreadable p e)
  | .ok text =>
    match parse (utf8 text) with
    | .error e => .error (.malformed p (e.message (utf8 text)))
    | .ok c =>
      match c.validate with
      | .error e => .error (.invalid e)
      | .ok () => .ok c

def load (fs : FileSystem) (dir : Path) : Except LoadError Loaded :=
  match find? fs dir with
  | none => .ok ⟨default, none⟩
  | some p =>
    match loadFile fs p with
    | .ok c => .ok ⟨c, some p⟩
    | .error e => .error e

end Config

end VisibleText
