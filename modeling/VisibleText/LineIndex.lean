import VisibleText.Hit

namespace VisibleText

structure Position where
  line : Nat
  column : Nat
  length : Nat
  context : List String := []
deriving DecidableEq, Repr, Inhabited

structure LineIndex where
  content : List Char
  starts : List Nat
deriving Repr, Inhabited

namespace LineIndex

def startsAfter (offset : Nat) : List Char → List Nat
  | [] => []
  | c :: cs =>
    let next := offset + c.utf8Size
    if c = '\n' then next :: startsAfter next cs else startsAfter next cs

def ofChars (content : List Char) : LineIndex := ⟨content, 0 :: startsAfter 0 content⟩

def lineCount (ix : LineIndex) : Nat :=
  if ix.content.getLast? = some '\n' then ix.starts.length - 1 else ix.starts.length

/-- The line and column of an offset. An offset past the end counts as the end, one inside a
character as the start of that character. -/
def lineCol (ix : LineIndex) (offset : Nat) : Nat × Nat :=
  let offset := floorBoundary ix.content offset
  let line := (ix.starts.takeWhile (· ≤ offset)).length
  let start := ix.starts.getD (line - 1) 0
  (line, (sliceBytes ix.content start offset).length)

def lineText? (ix : LineIndex) (line : Nat) : Option (List Char) :=
  if line = 0 || ix.lineCount < line then none
  else
    let start := ix.starts.getD (line - 1) 0
    let text := (dropBytes start ix.content).takeWhile (· != '\n')
    if text.getLast? = some '\r' then some text.dropLast else some text

def context (ix : LineIndex) (line window : Nat) : List String :=
  if window = 0 || line = 0 || ix.lineCount < line then []
  else
    let half := (window - 1) / 2
    let first := max 1 (line - half)
    let last := min ix.lineCount (line + half)
    (List.range' first (last + 1 - first)).filterMap fun l => (ix.lineText? l).map String.ofList

def position (ix : LineIndex) (hit : Hit) (window : Nat) : Position :=
  let (line, column) := ix.lineCol hit.offset
  ⟨line, column, hit.length, ix.context line window⟩

end LineIndex

end VisibleText
