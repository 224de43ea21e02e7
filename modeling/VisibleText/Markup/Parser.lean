import VisibleText.Markup.Node
import VisibleText.Markup.Tag

/-!
Reading markup. Elements may close without an end tag where `Tag.closesImplicitly` says so; blanks and
comments may stand between any two tokens. `parse?` gives no tree for other irregular markup, except
that with `lenient` the end of the input closes whatever is open.
-/
namespace VisibleText.Markup

structure Cursor where
  offset : Nat
  rest : Bytes
deriving Inhabited

namespace Cursor

def advance (c : Cursor) (n : Nat) : Cursor := ⟨c.offset + n, c.rest.drop n⟩

def head? (c : Cursor) : Option UInt8 := c.rest.head?

def startsWith (c : Cursor) (bs : Bytes) : Bool := bs.isPrefixOf c.rest

def expect? (c : Cursor) (b : UInt8) : Option Cursor :=
  if c.head? = some b then some (c.advance 1) else none

end Cursor

def isBlankByte (b : UInt8) : Bool := (0x09 ≤ b && b ≤ 0x0D) || b == 0x20

def skipBlanks (c : Cursor) : Cursor := c.advance (c.rest.takeWhile isBlankByte).length

def less : UInt8 := 0x3C
def greater : UInt8 := 0x3E
def slash : UInt8 := 0x2F
def bang : UInt8 := 0x21
def dash : UInt8 := 0x2D
def equals : UInt8 := 0x3D
def ampersand : UInt8 := 0x26
def semicolon : UInt8 := 0x3B

def commentTail? (dashes : Nat) : Bytes → Option Nat
  | [] => none
  | b :: bs =>
    if b = greater && 2 ≤ dashes then some 1
    else if b = 0 then none
    else (commentTail? (if b = dash then dashes + 1 else 0) bs).map (· + 1)

def commentLength? (c : Cursor) : Option Nat :=
  if c.startsWith [less, bang, dash, dash] then (commentTail? 0 (c.rest.drop 4)).map (· + 4) else none

def comments (c : Cursor) : Nat → List Node × Cursor
  | 0 => ([], c)
  | fuel + 1 =>
    let here := skipBlanks c
    match commentLength? here with
    | some n =>
      let (more, after) := comments (here.advance n) fuel
      (.leaf .comment here.offset (here.offset + n) :: more, after)
    | none => ([], c)

def extras (c : Cursor) : List Node × Cursor :=
  let (nodes, after) := comments c c.rest.length
  (nodes, skipBlanks after)

def runLength (p : UInt8 → Bool) (c : Cursor) : Nat := (c.rest.takeWhile p).length

def isTextByte (b : UInt8) : Bool := b != less && b != greater && b != ampersand && b != 0

def textLength (c : Cursor) : Nat :=
  ((c.rest.takeWhile isTextByte).reverse.dropWhile isBlankByte).length

def isHexByte (b : UInt8) : Bool :=
  (0x30 ≤ b && b ≤ 0x39) || (0x41 ≤ b && b ≤ 0x46) || (0x61 ≤ b && b ≤ 0x66)

def isDecimalByte (b : UInt8) : Bool := 0x30 ≤ b && b ≤ 0x39

def isLetterByte (b : UInt8) : Bool := (0x41 ≤ b && b ≤ 0x5A) || (0x61 ≤ b && b ≤ 0x7A)

/-- The length of a character reference: a number of up to six hexadecimal or five decimal digits,
or a name of up to thirty letters, and perhaps a semicolon. -/
def entityLength? (c : Cursor) : Option Nat :=
  let body := match c.rest with
    | 0x26 :: 0x23 :: x :: rest =>
      let hex := (rest.takeWhile isHexByte).length
      if (x == 0x78 || x == 0x58) && 0 < hex then some (3 + min 6 hex)
      else
        let dec := ((x :: rest).takeWhile isDecimalByte).length
        if 0 < dec then some (2 + min 5 dec) else none
    | 0x26 :: rest =>
      let letters := (rest.takeWhile isLetterByte).length
      if 0 < letters then some (1 + min 30 letters) else none
    | _ => none
  body.map fun n => if (c.advance n).head? = some semicolon then n + 1 else n

def isAttributeNameByte (b : UInt8) : Bool :=
  b != less && b != greater && b != 0x22 && b != 0x27 && b != slash && b != equals && b != 0
    && !isBlankByte b

def isAttributeValueByte (b : UInt8) : Bool :=
  b != less && b != greater && b != 0x22 && b != 0x27 && b != equals && b != 0 && !isBlankByte b

def attributeValue? (c : Cursor) : Option (Node × Cursor) := do
  let quote ← c.head?
  if quote = 0x22 || quote = 0x27 then
    let (notes, inner) := comments (c.advance 1) c.rest.length
    let n := runLength (fun b => b != quote && b != 0) inner
    let value := if n = 0 then [] else [Node.leaf .attributeValue inner.offset (inner.offset + n)]
    let after ← (inner.advance n).expect? quote
    return (.mk .quotedAttributeValue ⟨c.offset, after.offset⟩ (notes ++ value), after)
  else
    let n := runLength isAttributeValueByte c
    if n = 0 then none
    else return (.leaf .attributeValue c.offset (c.offset + n), c.advance n)

def attribute? (c : Cursor) : Option (List Node × Cursor) := do
  let n := runLength isAttributeNameByte c
  if n = 0 then none
  let name := Node.leaf .attributeName c.offset (c.offset + n)
  let (notes, next) := extras (c.advance n)
  match next.expect? equals with
  | some eq =>
    let (more, start) := extras eq
    let (value, after) ← attributeValue? start
    let whole := Node.mk .attr ⟨c.offset, after.offset⟩ (name :: notes ++ more ++ [value])
    return ([whole], after)
  | none => return (Node.mk .attr ⟨c.offset, c.offset + n⟩ [name] :: notes, next)

def attributes? (c : Cursor) : Nat → Option (List Node × Cursor)
  | 0 => none
  | fuel + 1 => do
    let (notes, here) := extras c
    match here.head? with
    | none => none
    | some b =>
      if b = greater || b = slash then return (notes, here)
      else
        let (nodes, after) ← attribute? here
        let (more, last) ← attributes? after fuel
        return (notes ++ nodes ++ more, last)

inductive TagEnd where
  | opens
  | selfCloses
deriving DecidableEq

def startTag? (c : Cursor) : Option (Tag × TagEnd × Node × Cursor) := do
  let (notes, nameAt) := extras (c.advance 1)
  let n := runLength Tag.isNameByte nameAt
  if n = 0 then none
  let tag := Tag.ofBytes (nameAt.rest.take n)
  let name := Node.leaf .tagName nameAt.offset (nameAt.offset + n)
  let (attrs, last) ← attributes? (nameAt.advance n) (nameAt.rest.length + 1)
  let children := notes ++ name :: attrs
  match last.rest with
  | 0x3E :: _ =>
    let after := last.advance 1
    return (tag, .opens, .mk .startTag ⟨c.offset, after.offset⟩ children, after)
  | 0x2F :: 0x3E :: _ =>
    if tag.name = "SCRIPT" || tag.name = "STYLE" then none
    else
      let after := last.advance 2
      return (tag, .selfCloses, .mk .selfClosingTag ⟨c.offset, after.offset⟩ children, after)
  | _ => none

def endTag? (c : Cursor) : Option (Tag × Span × List Node × List Node × Cursor) := do
  let (before, nameAt) := extras (c.advance 2)
  let n := runLength Tag.isNameByte nameAt
  if n = 0 then none
  let tag := Tag.ofBytes (nameAt.rest.take n)
  let (behind, last) := extras (nameAt.advance n)
  let after ← last.expect? greater
  return (tag, ⟨nameAt.offset, nameAt.offset + n⟩, before, behind, after)

def doctype? (c : Cursor) : Option (Node × Cursor) := do
  let (notes, wordAt) := extras (c.advance 2)
  let word := (wordAt.rest.take 7).map fun b => if isLetterByte b then b ||| 0x20 else b
  if word != [0x64, 0x6F, 0x63, 0x74, 0x79, 0x70, 0x65] then none
  let (more, inner) := comments (wordAt.advance 7) c.rest.length
  let n := runLength (fun b => b != greater && b != 0) inner
  if n = 0 then none
  let after ← (inner.advance n).expect? greater
  return (.mk .doctype ⟨c.offset, after.offset⟩ (notes ++ more), after)

def upperByte (b : UInt8) : UInt8 := if 0x61 ≤ b && b ≤ 0x7A then b - 0x20 else b

/-- The length of the text up to the end mark, which is given in upper case. A byte that breaks off
a beginning of the mark is not looked at again; a beginning at the end of the input is left out. -/
def rawTextLength (mark : Bytes) (matched : Nat) : Bytes → Nat
  | [] => 0
  | b :: bs =>
    if mark[matched]? = some (upperByte b) then
      if matched + 1 = mark.length then 0 else rawTextLength mark (matched + 1) bs
    else if b = 0 then 0
    else matched + 1 + rawTextLength mark 0 bs

def rawTextMark (t : Tag) : Bytes := [less, slash] ++ (utf8 t.name.toList)

structure Open where
  tag : Tag
  start : Nat
  children : List Node

structure Progress where
  stack : List Open
  top : List Node

namespace Progress

def tags (p : Progress) : List Tag := p.stack.map (·.tag)

def add (p : Progress) (nodes : List Node) : Progress :=
  match p.stack with
  | [] => { p with top := nodes.reverse ++ p.top }
  | o :: rest => { p with stack := { o with children := nodes.reverse ++ o.children } :: rest }

def close (p : Progress) (stop : Nat) : Progress :=
  match p.stack with
  | [] => p
  | o :: rest =>
    { p with stack := rest }.add [.mk .element ⟨o.start, stop⟩ o.children.reverse]

def closeAll (p : Progress) (stop : Nat) : List Node :=
  (p.stack.foldl (fun q _ => q.close stop) p).top.reverse

end Progress

def rawElement? (lenient : Bool) (tag : Tag) (start : Node) (c : Cursor) : Option (Node × Cursor) :=
  let n := rawTextLength (rawTextMark tag) 0 c.rest
  let raw := Node.leaf .rawText c.offset (c.offset + n)
  let kind := if tag.name = "SCRIPT" then Kind.scriptElement else .styleElement
  let from' := start.span.start
  let ended := do
    let (notes, last) := extras (c.advance n)
    if !last.startsWith [less, slash] then none
    let (endTag, nameSpan, before, behind, after) ← endTag? last
    if endTag != tag then none
    let name := Node.mk .tagName nameSpan []
    let close := Node.mk .endTag ⟨last.offset, after.offset⟩ (before ++ name :: behind)
    return (Node.mk kind ⟨from', after.offset⟩ (start :: raw :: notes ++ [close]), after)
  match ended with
  | some r => some r
  | none =>
    if lenient then
      let after := c.advance c.rest.length
      some (.mk kind ⟨from', after.offset⟩ [start, raw], after)
    else none

def step? (lenient : Bool) (p : Progress) (here : Cursor) : Option (Progress × Cursor) :=
  match here.rest with
  | [] => none
  | b :: rest =>
    if b = less then
      if rest.head? = some bang then do
        let (node, after) ← doctype? here
        return (p.add [node], after)
      else if Tag.closesImplicitly p.tags rest then some (p.close here.offset, here)
      else if rest.head? = some slash then do
        let (tag, nameSpan, before, behind, after) ← endTag? here
        let span : Span := ⟨here.offset, after.offset⟩
        if p.tags.head? = some tag then
          let children := before ++ Node.mk .tagName nameSpan [] :: behind
          return ((p.add [.mk .endTag span children]).close after.offset, after)
        else
          let children := before ++ Node.mk .erroneousEndTagName nameSpan [] :: behind
          return (p.add [.mk .erroneousEndTag span children], after)
      else do
        let (tag, tagEnd, node, after) ← startTag? here
        match tagEnd with
        | .selfCloses => return (p.add [.mk .element node.span [node]], after)
        | .opens =>
          if tag.name = "SCRIPT" || tag.name = "STYLE" then
            let (whole, after) ← rawElement? lenient tag node after
            return (p.add [whole], after)
          else return ({ p with stack := ⟨tag, here.offset, [node]⟩ :: p.stack }, after)
    else if b = ampersand then do
      let n ← entityLength? here
      return (p.add [.leaf .entity here.offset (here.offset + n)], here.advance n)
    else if isTextByte b then
      let n := textLength here
      some (p.add [.leaf .text here.offset (here.offset + n)], here.advance n)
    else none

def nodes? (lenient : Bool) : Nat → Progress → Cursor → Option (List Node)
  | 0, _, _ => none
  | fuel + 1, p, c =>
    let (notes, here) := extras c
    let p := p.add notes
    if here.rest.isEmpty then
      if p.stack.isEmpty then some p.top.reverse
      else if Tag.closesImplicitly p.tags [] then nodes? lenient fuel (p.close here.offset) here
      else if lenient then some (p.closeAll here.offset)
      else none
    else
      match step? lenient p here with
      | some (p, after) => nodes? lenient fuel p after
      | none =>
        -- only ASCII bytes begin no node
        if lenient then
          nodes? lenient fuel (p.add [.leaf .error here.offset (here.offset + 1)]) (here.advance 1)
        else none

def parse? (lenient : Bool) (bs : Bytes) : Option Node := do
  let mark : Bytes := [0xEF, 0xBB, 0xBF]
  let start : Cursor := if mark.isPrefixOf bs then ⟨3, bs.drop 3⟩ else ⟨0, bs⟩
  let nodes ← nodes? lenient (2 * bs.length + 2) ⟨[], []⟩ start
  let first := match nodes with
    | n :: _ => n.span.start
    | [] => bs.length
  return .mk .document ⟨first, bs.length⟩ nodes

end VisibleText.Markup
