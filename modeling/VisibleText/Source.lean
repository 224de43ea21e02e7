import VisibleText.Code.Extract
import VisibleText.Exclusion.Dictionary
import VisibleText.Path
import VisibleText.Record.Basic
import VisibleText.Template

namespace VisibleText

inductive FileKind where
  | template
  | script
deriving DecidableEq, Repr, Inhabited

namespace FileKind

def name : FileKind → String
  | template => "template"
  | script => "script"

def ofPath? (p : Path) : Option FileKind :=
  let suffix := ".blade.php"
  match p.fileName? with
  | none => none
  | some name =>
    if name.endsWith suffix && suffix.length < name.length then some template
    else if p.extension? = some "php" then some script
    else none

end FileKind

structure SourceFile where
  path : Path
  kind : FileKind
deriving DecidableEq, Repr, Inhabited

structure ScanOptions where
  minBytes : Nat
  contextLines : Nat
  scanTemplates : Bool
  scanScripts : Bool
  checkedAttributes : List String
deriving DecidableEq, Repr, Inhabited

namespace ScanOptions

def scans (o : ScanOptions) : FileKind → Bool
  | .template => o.scanTemplates
  | .script => o.scanScripts

end ScanOptions

def extractHits (e : Engines) (kind : FileKind) (o : ScanOptions) (content : List Char) :
    Except Fault (List Hit) :=
  match kind with
  | .template => Template.extract e o.checkedAttributes content
  | .script => .ok (Code.extract content)

def extractTexts (e : Engines) (kind : FileKind) (o : ScanOptions) (d : Exclusion.Dictionary) (file : String)
    (content : List Char) : Except Fault FileTexts := do
  let index := LineIndex.ofChars content
  let hits := (← extractHits e kind o content).filter fun h => d.accepts o.minBytes h.text
  return ⟨file, hits.map fun h => (String.ofList h.text, index.position h o.contextLines)⟩

end VisibleText
