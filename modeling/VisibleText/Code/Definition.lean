import VisibleText.Code.Delimiter
import VisibleText.Text.Blank
import VisibleText.Unicode.Word

namespace VisibleText.Code

structure HeadPart where
  text : String
  blankAfter : Bool
deriving Repr

def arrayMethodHead (visibility name : String) : List HeadPart :=
  [⟨visibility, true⟩, ⟨"function", true⟩, ⟨name, false⟩, ⟨"(", false⟩, ⟨")", false⟩, ⟨":", false⟩,
    ⟨"array", false⟩, ⟨"\x7b", false⟩]

def excludedHeads : List (List HeadPart) :=
  [arrayMethodHead "protected" "casts", arrayMethodHead "public" "rules"]

def afterHead? : List HeadPart → List Char → Option (List Char)
  | [], cs => some cs
  | part :: parts, cs =>
    if part.text.toList.isPrefixOf cs then
      let rest := cs.drop part.text.length
      let next := if parts.isEmpty then rest else trimStart rest
      if part.blankAfter && !(rest.head?.any isBlank) then none else afterHead? parts next
    else none

def headSpans (head : List HeadPart) (offset : Nat) (before : Option Char) (cs : List Char) :
    List Span :=
  match cs with
  | [] => []
  | c :: more =>
    let found := if Unicode.atWordBoundary before (some c) then afterHead? head (c :: more) else none
    match found with
    | some rest =>
      let used := (c :: more).length - rest.length
      let stop := offset + byteLength ((c :: more).take used)
      ⟨offset, stop⟩ :: headSpans head stop ((c :: more)[used - 1]?) (more.drop (used - 1))
    | none => headSpans head (offset + c.utf8Size) (some c) more
termination_by cs.length
decreasing_by all_goals simp only [List.length_cons, List.length_drop]; omega

/-- The excluded definitions whose heads stand in a span of the content. A body that is never closed
reaches to the end of the span. -/
def excludedDefinitions (content : List Char) (s : Span) : SpanSet :=
  let bytes := utf8 content
  let heads := excludedHeads.flatMap fun head =>
    headSpans head s.start none (sliceBytes content s.start s.stop)
  .ofSpans (heads.map fun h =>
    match partner? .php bytes (h.stop - 1) with
    | some close => ⟨h.start, close + 1⟩
    | none => ⟨h.start, s.stop⟩)

end VisibleText.Code
