import VisibleText.FileSystem.Basic
import VisibleText.Record.Report
import VisibleText.Source

namespace VisibleText

structure FileFailure where
  file : String
  cause : String
deriving DecidableEq, Repr, Inhabited

structure Extraction where
  records : List Record
  processed : Nat
  failures : List FileFailure
deriving DecidableEq, Repr, Inhabited

namespace Extraction

def total (e : Extraction) : Nat := Record.totalOf e.records

def readFile (e : Engines) (fs : FileSystem) (d : Exclusion.Dictionary) (o : ScanOptions) (f : SourceFile) :
    Except Fault (Except FileFailure FileTexts) :=
  match fs.readText f.path with
  | .ok content => return .ok (← extractTexts e f.kind o d f.path.text content)
  | .error x =>
    return .error ⟨f.path.text, "Failed to read file: " ++ f.path.text ++ ": " ++ x.message⟩

def failure? : Except FileFailure FileTexts → Option FileFailure
  | .error x => some x
  | .ok _ => none

def ofResults (results : List (Except FileFailure FileTexts)) : Extraction :=
  let texts := results.filterMap Except.toOption
  { records := (Catalog.ofFiles texts).records
    processed := texts.length
    failures := results.filterMap failure? }

/-- Searches the files of the kinds that are wanted, in order. A fault in one of them is the end of the whole run. -/
def run (e : Engines) (fs : FileSystem) (d : Exclusion.Dictionary) (o : ScanOptions)
    (files : List SourceFile) : Except Fault Extraction := do
  return ofResults (← (files.filter fun f => o.scans f.kind).mapM (readFile e fs d o))

def warnings (color : Bool) (e : Extraction) : String :=
  String.join (e.failures.map fun f => Report.warning color ++ f.file ++ " - " ++ f.cause ++ "\n")

end Extraction

end VisibleText
