import VisibleText.Blade.Region
import VisibleText.Code.Extract
import VisibleText.Engines

/-!
The texts of a template: lines of text between tags, values of chosen attributes, string literals of
scripts, and the literals of PHP blocks. Template code is found first; a candidate that shares a byte
with it is no text. The spans come from readers of other languages, and one that cannot be cut out of
the content stops the search for good.
-/
namespace VisibleText

/-- A span that does not lie between characters of the content, in order and inside of it. -/
structure Fault where
  span : Span
deriving DecidableEq, Repr, Inhabited

def cut (content : List Char) (s : Span) : Except Fault (List Char) :=
  match slice? content s.start s.stop with
  | some text => .ok text
  | none => .error ⟨s⟩

namespace Template

structure Source where
  content : List Char
  excluded : SpanSet
  attributes : List String
  script? : List Char → Option JavaScript.Tree

def lineSpansFrom (start stop : Nat) : List Char → List Span
  | [] => [⟨start, stop⟩]
  | c :: cs =>
    if c = '\n' then ⟨start, stop⟩ :: lineSpansFrom (stop + 1) (stop + 1) cs
    else lineSpansFrom start (stop + c.utf8Size) cs

namespace Source

def candidate? (t : Source) (s : Span) : Except Fault (Option Hit) := do
  let raw ← cut t.content s
  return (Hit.ofRaw? raw s.start).filter fun hit => !t.excluded.overlaps hit.span

def hitsAt (t : Source) (spans : List Span) : Except Fault (List Hit) := do
  return (← spans.mapM t.candidate?).filterMap id

def runHits (t : Source) (run : Span) : Except Fault (List Hit) := do
  let text ← cut t.content run
  t.hitsAt (lineSpansFrom run.start run.start text)

/-- The bodies of the string literals of a script. Where it is no program, since template code stands
in it, every quoted stretch counts. -/
def scriptBodies (t : Source) (code : List Char) : List Span :=
  match t.script? code with
  | some tree => tree.literals
  | none => (Code.literals .js (utf8 code) ⟨0, byteLength code⟩).map Code.Literal.body

def scriptHits (t : Source) (children : List Markup.Node) : Except Fault (List Hit) :=
  match children.find? fun n => n.kind = .rawText with
  | none => .ok []
  | some n => do
    let code ← cut t.content n.span
    t.hitsAt ((t.scriptBodies code).map (Span.shift n.span.start))

def lowerName (cs : List Char) : List Char := cs.map Char.toLower

def valueSpan? (children : List Markup.Node) : Option Span :=
  children.foldl (fun found n =>
    match n.kind with
    | .attributeValue => some n.span
    | .quotedAttributeValue => (n.children.find? fun m => m.kind = .attributeValue).map (·.span)
    | _ => found) none

def attributeHits (t : Source) (children : List Markup.Node) : Except Fault (List Hit) := do
  let names ← (children.filter fun n => n.kind = .attributeName).mapM fun n => cut t.content n.span
  let name := names.getLast?.map lowerName
  let checked := t.attributes.any fun a => some (lowerName a.toList) = name
  match valueSpan? children with
  | some s => if checked then t.hitsAt [s] else return []
  | none => return []

def extendRun (run : Option Span) (s : Span) : Span :=
  match run with
  | some r => ⟨r.start, s.stop⟩
  | none => s

def isText (n : Markup.Node) : Bool := n.kind = .text || n.kind = .entity

def pendingHits (t : Source) : Option Span → Except Fault (List Hit)
  | some run => t.runHits run
  | none => .ok []

mutual

def nodeHits (t : Source) : Markup.Node → Except Fault (List Hit)
  | .mk .comment _ _ => .ok []
  | .mk .styleElement _ _ => .ok []
  | .mk .scriptElement _ children => t.scriptHits children
  | .mk .attr _ children => t.attributeHits children
  | .mk _ _ children => childHits t none children

def childHits (t : Source) (run : Option Span) : List Markup.Node → Except Fault (List Hit)
  | [] => t.pendingHits run
  | n :: ns =>
    if isText n then childHits t (some (extendRun run n.span)) ns
    else do
      let before ← t.pendingHits run
      let here ← nodeHits t n
      let behind ← childHits t none ns
      return before ++ here ++ behind

end

end Source

def extract (e : Engines) (attributes : List String) (content : List Char) : Except Fault (List Hit) := do
  let regions := Blade.scan (utf8 content)
  let source : Source := ⟨content, regions.excluded, attributes, e.script?⟩
  let found ← source.nodeHits (e.markup content)
  let blocks := regions.blocks.flatMap (Code.extractRange content)
  return (found ++ blocks).mergeSort fun a b => a.offset ≤ b.offset

end Template

end VisibleText
