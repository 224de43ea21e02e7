import Mathlib.Logic.Function.Basic
import VisibleText.Proofs.JsonDocument
import VisibleText.Record.Json

namespace VisibleText

namespace Json.Value

def string? : Value → Option String
  | .string s => some s
  | _ => none

def number? : Value → Option ℕ
  | .number n => some n
  | _ => none

def items? {α : Type} (item : Value → Option α) : Value → Option (List α)
  | .array vs => vs.mapM item
  | _ => none

def member? (name : String) : Value → Option Value
  | .object ms => ms.lookup name
  | _ => none

theorem items?_map {α : Type} {write : α → Value} {item : Value → Option α} (h : ∀ a, item (write a) = some a)
    (xs : List α) : items? item (.array (xs.map write)) = some xs := by
  rw [items?]
  induction xs with
  | nil => rfl
  | cons x xs ih => simp [h x, ih]

end Json.Value

open Json.Value

def Position.ofJson? (v : Json.Value) : Option Position := do
  let line ← (← v.member? "line").number?
  let column ← (← v.member? "column").number?
  let length ← (← v.member? "length").number?
  let context ← match v.member? "context" with
    | some lines => lines.items? string?
    | none => some []
  return ⟨line, column, length, context⟩

def Occurrence.ofJson? (v : Json.Value) : Option Occurrence := do
  let file ← (← v.member? "file").string?
  let positions ← (← v.member? "positions").items? Position.ofJson?
  return ⟨file, positions⟩

namespace Record

def ofJson? (v : Json.Value) : Option Record := do
  let text ← (← v.member? "text").string?
  let occurrences ← (← v.member? "occurrences").items? Occurrence.ofJson?
  return ⟨text, occurrences⟩

def decode? (document : Bytes) : Option (List Record) :=
  match Json.parse document with
  | .ok v => v.items? ofJson?
  | .error _ => none

end Record

theorem Position.ofJson?_toJson (p : Position) : ofJson? p.toJson = some p := by
  obtain ⟨line, column, length, context⟩ := p
  have hline : ∀ s, string? (.string s) = some s := fun _ => rfl
  have hcontext := items?_map hline context
  cases context with
  | nil => rfl
  | cons first context =>
    rw [List.map_cons] at hcontext
    simp [ofJson?, toJson, member?, List.lookup_cons, number?, hcontext]

theorem Occurrence.ofJson?_toJson (o : Occurrence) : ofJson? o.toJson = some o := by
  have hpositions := items?_map Position.ofJson?_toJson o.positions
  simp [ofJson?, toJson, member?, List.lookup_cons, string?, hpositions]

namespace Record

theorem ofJson?_toJson (r : Record) : ofJson? r.toJson = some r := by
  have hoccurrences := items?_map Occurrence.ofJson?_toJson r.occurrences
  simp [ofJson?, toJson, member?, List.lookup_cons, string?, hoccurrences]

theorem toList_render (records : List Record) :
    (render records).toList = (Json.Value.array (records.map toJson)).renderAt 0 ++ ['\n'] := by
  rw [render, Json.Value.render, String.toList_append, String.toList_ofList]
  rfl

theorem decode?_render (records : List Record) : decode? (utf8 (render records).toList) = some records := by
  have hblank : Json.IsBlank ['\n'] := by simp [Json.IsBlank]
  rw [decode?, toList_render, Json.parse_renderAt _ hblank]
  exact items?_map ofJson?_toJson records

theorem render_lossless :
    (∀ records, (∃ document, (render records).toList = document ++ ['\n'] ∧ Json.IsValue document) ∧
      decode? (utf8 (render records).toList) = some records) ∧ Function.Injective render := by
  refine ⟨fun records => ⟨?_, decode?_render records⟩, ?_⟩
  · exact ⟨_, toList_render records, Json.isValue_renderAt _ 0⟩
  · intro records others h
    have hothers := decode?_render others
    rw [← h, decode?_render records] at hothers
    exact Option.some.inj hothers

end Record

end VisibleText
