import VisibleText.Json.Value
import VisibleText.Path
import VisibleText.Record.Basic

namespace VisibleText

namespace Position

def toJson (p : Position) : Json.Value :=
  let place : List (String × Json.Value) :=
    [("line", .number p.line), ("column", .number p.column), ("length", .number p.length)]
  .object (if p.context.isEmpty then place
    else place ++ [("context", .array (p.context.map .string))])

end Position

def Occurrence.toJson (o : Occurrence) : Json.Value :=
  .object [("file", .string o.file), ("positions", .array (o.positions.map Position.toJson))]

namespace Record

def toJson (r : Record) : Json.Value :=
  .object [("text", .string r.text), ("occurrences", .array (r.occurrences.map Occurrence.toJson))]

def render (records : List Record) : String := (Json.Value.array (records.map toJson)).render ++ "\n"

end Record

def chunksOf {α : Type} (limit : Nat) (xs : List α) : List (List α) :=
  match xs with
  | [] => []
  | x :: rest => (x :: rest).take (limit - 1 + 1) :: chunksOf limit (rest.drop (limit - 1))
termination_by xs.length
decreasing_by all_goals simp only [List.length_cons, List.length_drop]; omega

def splitRecords (limit : Option Nat) (records : List Record) : List (List Record) :=
  match limit with
  | some n => if 0 < n ∧ n < records.length then chunksOf n records else [records]
  | none => [records]

/-- The path of the `n`th file, counted from one: the first has the given path, and the name of each
other one gets its number before the extension. -/
def Path.numbered (p : Path) (n : Nat) : Path :=
  if n ≤ 1 then p
  else
    let stem := (p.stem?).getD "" ++ "-" ++ toString n
    match p.extension? with
    | some e => p.withFileName (stem ++ "." ++ e)
    | none => p.withFileName stem

end VisibleText
