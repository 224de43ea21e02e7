import VisibleText.Record.Basic
import VisibleText.Text.Style
import VisibleText.Text.Width

namespace VisibleText.Report

def firstLine (p : Position) (window : Nat) : Nat := p.line - min ((window - 1) / 2) (p.line - 1)

def lastLine (p : Position) (window : Nat) : Nat := firstLine p window + max p.context.length 1 - 1

def numberWidth (records : List Record) (window : Nat) : Nat :=
  let positions := records.flatMap fun r => r.occurrences.flatMap (·.positions)
  match (positions.map fun p => lastLine p window).max? with
  | some n => (toString n).length
  | none => 1

def bar (color : Bool) : String := Style.blue.paint color "|"

def caretLine (color : Bool) (width column : Nat) (line : String) : String :=
  let indent := displayWidth (line.toList.take column)
  padLeft width "" ++ " " ++ bar color ++ " " ++ padLeft indent "" ++ Style.green.paint color "^" ++ "\n"

def contextLines (color : Bool) (width : Nat) (p : Position) (number : Nat) : List String → String
  | [] => ""
  | line :: rest =>
    Style.blue.paint color (padLeft width (toString number)) ++ " " ++ bar color ++ " " ++ line ++ "\n"
      ++ (if number = p.line then caretLine color width p.column line else "")
      ++ contextLines color width p (number + 1) rest

def place (color : Bool) (window width : Nat) (text file : String) (p : Position) : String :=
  let head := Style.boldGreen.paint color "string" ++ ": \"" ++ text ++ "\"\n"
    ++ "  " ++ Style.blue.paint color "-->" ++ " " ++ file ++ ":" ++ toString p.line ++ ":"
    ++ toString (p.column + 1) ++ "\n"
  let lines :=
    if p.context.isEmpty then ""
    else padLeft width "" ++ " " ++ bar color ++ "\n"
      ++ contextLines color width p (firstLine p window) p.context
  head ++ lines ++ "\n"

def render (color : Bool) (window : Nat) (records : List Record) : String :=
  let width := numberWidth records window
  String.join (records.flatMap fun r => r.occurrences.flatMap fun o =>
    o.positions.map (place color window width r.text o.file))

def counted (n : Nat) (one many : String) : String :=
  toString n ++ " " ++ (if n = 1 then one else many)

def success (color : Bool) (message : String) : String :=
  Style.green.paint color "✓" ++ " " ++ Style.green.paint color message ++ "\n"

def warning (color : Bool) : String := Style.boldYellow.paint color "warning:" ++ " "

def note (color : Bool) : String := Style.bold.paint color "note:" ++ " "

def failures (color verbose : Bool) (count : Nat) : String :=
  if count = 0 then ""
  else warning color ++ counted count "file" "files" ++ " could not be read or scanned"
    ++ (if verbose then "" else " (use " ++ Style.cyan.paint color "-v" ++ " for details)") ++ "\n"

def summary (color verbose : Bool) (files : Nat) (records : List Record) (failed : Nat) : String :=
  success color ("Processed " ++ counted files "file" "files" ++ ": "
      ++ counted records.length "unique string" "unique strings" ++ ", "
      ++ counted (Record.totalOf records) "occurrence" "occurrences")
    ++ failures color verbose failed

def written (color : Bool) (paths : List String) (count : Nat) : String :=
  success color ("Wrote " ++ counted count "record" "records" ++ " to "
      ++ counted paths.length "file" "files")
    ++ String.join (paths.map fun p => "  " ++ Style.blue.paint color "-->" ++ " " ++ p ++ "\n")

end VisibleText.Report
