import VisibleText.JavaScript.Parser

namespace VisibleText.JavaScript

open VisibleText.JavaScript.Parser

def templateText? (tagged : Bool) : Nat → Cursor → Option (Cursor × Bool)
  | 0, _ => none
  | fuel + 1, c =>
    match c.rest with
    | [] => none
    | '`' :: _ => some (c.skip 1, true)
    | '$' :: '\x7b' :: _ => some (c.skip 2, false)
    | '\\' :: rest =>
      let octal := match rest with
        | '0' :: d :: _ => d.isDigit
        | d :: _ => '1' ≤ d && d ≤ '9'
        | [] => false
      match escapeLength? rest with
      | some n => if octal && !tagged then none else templateText? tagged fuel (c.skip (n + 1))
      | none => if tagged && !rest.isEmpty then templateText? tagged fuel (c.skip 2) else none
    | _ :: _ => templateText? tagged fuel (c.skip 1)

def template (g : Grammar) (c : Context) (tagged : Bool) : Parser (List Tree) :=
  repeated [] fun acc => do
    let l ← lexeme
    check (l.token = .mark "`" || l.token = .mark "\x7d")
    let from_ := l.next
    match templateText? tagged (from_.rest.length + 1) from_ with
    | none => fail
    | some (after, closed) =>
      resume after
      if closed then return .inr acc.reverse
      let t ← g.expression c.withIn
      check (← isMark "\x7d")
      return .inl (t :: acc)

def regexEnd? : Nat → Cursor → Bool → Option Cursor
  | 0, _, _ => none
  | fuel + 1, c, bracket =>
    match c.rest with
    | [] => none
    | '\\' :: d :: _ => if isLineEnd d then none else regexEnd? fuel (c.skip 2) bracket
    | d :: _ =>
      if isLineEnd d then none
      else if d = '/' && !bracket then some (c.skip 1)
      else regexEnd? fuel (c.skip 1) (if d = '[' then true else if d = ']' then false else bracket)

def regex : Parser Tree := do
  let l ← lexeme
  check (l.token = .mark "/" || l.token = .mark "/=")
  let here := l.here
  match regexEnd? (here.rest.length + 1) (here.skip 1) false with
  | none => fail
  | some c =>
    resume (c.skipWhile isIdentifierPart)
    node .other here.offset []

def propertyName (g : Grammar) (c : Context) : Parser Tree := do
  let start ← position
  match ← token with
  | .word _ _ => leaf .propertyName
  | .number => leaf .propertyName
  | .string =>
    let t ← literal
    node .propertyName start [t]
  | .mark "[" =>
    eat
    let t ← g.assignment c.withIn
    expectMark "]"
    node .computedName start [t]
  | _ => fail

def block (g : Grammar) (c : Context) : Parser (List Tree) := do
  expectMark "\x7b"
  repeated [] fun acc => do
    if ← eatMark "\x7d" then return .inr acc.reverse
    if ← isFinish then return .inr acc.reverse
    return .inl ((← g.statement c.inner true) :: acc)

def initializer (g : Grammar) (c : Context) : Parser (List Tree) := do
  if ← eatMark "=" then return [← g.assignment c] else return []

def parameter (g : Grammar) (c : Context) : Parser Tree := do
  let start ← position
  let _ ← eatMark "..."
  let name ← g.binding c
  node .other start (name :: (← initializer g c.withIn))

def functionParts (g : Grammar) (c : Context) : Parser (List Tree) := do
  expectMark "("
  let params ← commaSeparated ")" (parameter g c)
  return params ++ (← block g c)

def functionRest (g : Grammar) (start : Nat) (async named : Bool) : Parser Tree := do
  let generator ← eatMark "*"
  let c := Context.function async generator false
  let name ← if named || !(← isMark "(") then pure [← identifier] else pure []
  node .other start (name ++ (← functionParts g c))

def arrowBody (g : Grammar) (c : Context) (async : Bool) : Parser (List Tree) := do
  let c := { c with async := async, yields := false }
  if ← isMark "\x7b" then block g { c with allowIn := true } else return [← g.assignment c.inner]

def methodRest (g : Grammar) (start : Nat) (head : List Tree) (async generator : Bool) : Parser Tree := do
  node .method start (head ++ (← functionParts g (.function async generator true)))

def objectMember (g : Grammar) (c : Context) : Parser Tree := do
  let start ← position
  if ← eatMark "..." then
    return ← node .spread start [← g.assignment c.withIn]
  if ← eatMark "*" then
    return ← methodRest g start [← propertyName g c] false true
  let word := match ← token with
    | .word w _ => some w
    | _ => none
  let name ← propertyName g c
  if ← eatMark ":" then
    return ← node .keyValue start [name, ← g.assignment c.withIn]
  if ← isMark "(" then
    return ← methodRest g start [name] false false
  match word with
  | none => fail
  | some w =>
    if ← isMarkOf [",", "\x7d"] then return ← node .shorthand start [name]
    if ← eatMark "=" then
      return ← node .shorthandDefault start [name, ← g.assignment c.withIn]
    check (["get", "set", "async"].contains w)
    let generator ← if w = "async" then eatMark "*" else pure false
    methodRest g start [name, ← propertyName g c] (w = "async") generator

def namesMember : Parser Bool := isMarkOf ["(", "=", ";", "\x7d"]

def memberName (g : Grammar) (c : Context) : Parser Tree := do
  match ← token with
  | .privateName => leaf .propertyName
  | _ => propertyName g c

/-- A field or method of a class after its name. A field with a value need not be separated from the
next member, and none is called `constructor`. -/
def memberRest (g : Grammar) (c : Context) (start : Nat) (name : Tree) (isConstructor : Bool) :
    Parser Tree := do
  if ← isMark "(" then methodRest g start [name] false false
  else
    check ((← isMark "=") || (← atSemicolon))
    check !isConstructor
    let value ← initializer g { c with allowIn := true, allowSuper := true, yields := false, async := false }
    let t ← node .other start (name :: value)
    let _ ← eatSemicolon
    return t

def atConstructor : Parser Bool := do
  match ← token with
  | .word w _ => return w = "constructor"
  | .string =>
    let l ← lexeme
    let name := "constructor".toList
    return (l.here.rest.drop 1).take name.length = name && l.span.stop = l.span.start + name.length + 2
  | _ => return false

def classMember (g : Grammar) (c : Context) (start : Nat) : Parser Tree := do
  if ← eatMark "*" then
    return ← methodRest g start [← memberName g c] false true
  let word := match ← token with
    | .word w _ => w
    | _ => ""
  let isConstructor ← atConstructor
  let name ← memberName g c
  if !(["get", "set", "async"].contains word) || (← namesMember) then
    return ← memberRest g c start name isConstructor
  if word = "async" then
    if ← onNewLine then return ← memberRest g c start name false
    let generator ← eatMark "*"
    check !(← atConstructor)
    return ← methodRest g start [name, ← memberName g c] true generator
  if (← onNewLine) && (← isMark "*") then return ← memberRest g c start name false
  methodRest g start [name, ← memberName g c] false false

/-- The members of a class up to the closing brace. The end of the program closes the class too. -/
def classBody (g : Grammar) (c : Context) : Parser (List Tree) := do
  expectMark "\x7b"
  repeated [] fun acc => do
    if ← eatMark "\x7d" then return .inr acc.reverse
    if ← isFinish then return .inr acc.reverse
    if ← eatMark ";" then return .inl acc
    let start ← position
    if ← isWord "static" then
      let name ← leaf .propertyName
      if ← namesMember then return .inl ((← memberRest g c start name false) :: acc)
      if ← isMark "\x7b" then
        let body ← block g (.function false false true)
        return .inl ((← node .other start body) :: acc)
    return .inl ((← classMember g c start) :: acc)

def spreadable (g : Grammar) (c : Context) : Parser Tree := do
  let start ← position
  if ← eatMark "..." then node .spread start [← g.assignment c.withIn]
  else g.assignment c.withIn

def arrayElements (item : Parser Tree) : Parser (List Tree) :=
  repeated [] fun acc => do
    if ← eatMark "]" then return .inr acc.reverse
    if ← eatMark "," then return .inl acc
    let t ← item
    if ← eatMark "," then return .inl (t :: acc)
    expectMark "]"
    return .inr (t :: acc).reverse

def binaryMarks : List String := [
  "??", "||", "&&", "|", "^", "&", "==", "!=", "===", "!==", "<", ">", "<=", ">=", "<<", ">>",
  ">>>", "+", "-", "*", "/", "%", "**"]

def atBinary (c : Context) : Parser Bool := do
  match ← token with
  | .mark m => return binaryMarks.contains m
  | .word "instanceof" false => return true
  | .word "in" false => return c.allowIn
  | _ => return false

def operand (g : Grammar) (c : Context) : Parser Tree := do
  if (← token) = .privateName then
    let t ← leaf .other
    check (c.allowIn && (← isWord "in"))
    return t
  else g.unary c

def binaryRest (g : Grammar) (c : Context) (start : Nat) (first : Tree) : Parser Tree :=
  repeated (first, [first]) fun (last, acc) => do
    if !(← atBinary c) then
      match acc with
      | [t] => return .inr t
      | _ => return .inr (← node .operation start acc.reverse)
    check !(last.kind == .prefixed && (← isMark "**"))
    eat
    let t ← operand g c
    return .inl (t, t :: acc)

def accept (old : Tree) (new : Option Tree) : Parser Tree :=
  match new with
  | some t => do
    modify (State.passLost [old] [t])
    return t
  | none => fail

def arrowFunction (g : Grammar) (c : Context) (start : Nat) (async : Bool) (params : List Tree) :
    Parser Tree := do
  eat
  let braced ← isMark "\x7b"
  let arrow ← node .arrow start (params ++ (← arrowBody g c async))
  if braced && (← isMarkOf binaryMarks) then binaryRest g c start arrow else return arrow

def parenthesized (g : Grammar) (c : Context) (start : Nat) (canBeArrow async : Bool) : Parser Tree := do
  expectMark "("
  let items ← commaSeparated ")" (spreadable g c)
  if ← isMark "=>" then
    check (canBeArrow && !(← onNewLine))
    match Tree.itemsAsPatterns? .binds items with
    | some params =>
      modify (State.passLost items params)
      arrowFunction g c start async params
    | none => fail
  else if async then node .other start items
  else
    check (!items.isEmpty && items.all fun t => t.kind != .spread)
    node .parenthesized start items

def nameOrArrow (g : Grammar) (c : Context) (canBeArrow : Bool) : Parser Tree := do
  let start ← position
  let async ← isWord "async"
  let name ← identifier
  if canBeArrow && !(← onNewLine) then
    if ← eatMark "=>" then
      return ← node .arrow start (name :: (← arrowBody g c false))
    if async then
      if ← isMark "(" then return ← parenthesized g c start true true
      match ← token with
      | .word w _ =>
        if !reserved.contains w then
          let parameter ← identifier
          expectMark "=>"
          return ← node .arrow start (parameter :: (← arrowBody g c true))
      | _ => pure ()
  return name

def classRest (g : Grammar) (c : Context) (start : Nat) (named : Bool) : Parser Tree := do
  let anonymous := !named && ((← isMark "\x7b") || (← isWord "extends"))
  let name ← if anonymous then pure [] else pure [← identifier]
  let parent ← if ← eatWord "extends" then pure [← g.leftHandSide c] else pure []
  if ← eatWord "extends" then let _ ← passOver (g.leftHandSide c)
  node .other start (name ++ parent ++ (← classBody g c))

def primary (g : Grammar) (c : Context) : Parser Tree := do
  let start ← position
  let canBeArrow := (← get).arrowStart == start
  match ← token with
  | .string => literal
  | .number => leaf .other
  | .word "this" false => leaf .other
  | .word "null" false => leaf .other
  | .word "true" false => leaf .other
  | .word "false" false => leaf .other
  | .word "function" false =>
    eat
    functionRest g start false false
  | .word "class" false =>
    eat
    classRest g c start false
  | .word "async" false =>
    let next ← peek
    if next.token = .word "function" false && !next.onNewLine then
      eat
      eat
      functionRest g start true false
    else nameOrArrow g c canBeArrow
  | .word _ _ => nameOrArrow g c canBeArrow
  | .mark "(" => parenthesized g c start canBeArrow false
  | .mark "[" =>
    eat
    node .array start (← arrayElements (spreadable g c))
  | .mark "\x7b" =>
    eat
    node .object start (← commaSeparated "\x7d" (objectMember g c))
  | .mark "`" => node .other start (← template g c false)
  | .mark "/" => regex
  | .mark "/=" => regex
  | _ => fail

def subscript (g : Grammar) (c : Context) (calls : Bool) (start : Nat) (base : Tree) :
    Parser (Tree ⊕ Tree) := do
  let optional ← eatMark "?."
  let kind (k : Kind) := if optional || base.kind = .optionalChain then .optionalChain else k
  match ← token with
  | .mark "[" =>
    eat
    let t ← g.expression c.withIn
    expectMark "]"
    return .inl (← node (kind .member) start [base, t])
  | .mark "(" =>
    if calls || optional then
      eat
      let args ← commaSeparated ")" (spreadable g c)
      return .inl (← node (kind .other) start (base :: args))
    else return .inr base
  | .mark "`" =>
    check !optional
    return .inl (← node .operation start (base :: (← template g c true)))
  | .mark "." =>
    check !optional
    eat
    match ← token with
    | .word _ _ => eat
    | .privateName => eat
    | _ => fail
    return .inl (← node (kind .member) start [base])
  | t =>
    if optional then
      match t with
      | .word _ _ => eat
      | .privateName => eat
      | _ => fail
      return .inl (← node .optionalChain start [base])
    else return .inr base

def subscripts (g : Grammar) (c : Context) (calls : Bool) (start : Nat) (base : Tree) : Parser Tree :=
  if base.kind = .arrow then pure base else repeated base (subscript g c calls start)

def superExpression (g : Grammar) (c : Context) (calls : Bool) : Parser Tree := do
  let start ← position
  expectWord "super"
  if ← isMark "(" then
    check calls
    eat
    let args ← commaSeparated ")" (spreadable g c)
    subscripts g c calls start (← node .other start args)
  else
    check c.allowSuper
    check (← isMarkOf [".", "["])
    match ← subscript g c calls start (← node .other start []) with
    | .inl t => subscripts g c calls start (.node .superMember t.span [t])
    | .inr _ => fail

def importExpression (g : Grammar) (c : Context) (calls : Bool) : Parser Tree := do
  let start ← position
  expectWord "import"
  if ← eatMark "." then
    if ← eatWord "meta" then return ← subscripts g c calls start (← node .other start [])
    check ((← isWord "defer") || (← isWord "source"))
    eat
  check calls
  expectMark "("
  let args ← commaSeparated ")" (spreadable g c)
  subscripts g c calls start (← node .other start args)

def constructed (g : Grammar) (c : Context) : Parser Tree := do
  let start ← position
  if ← eatWord "new" then
    if ← eatMark "." then
      expectWord "target"
      subscripts g c false start (← node .other start [])
    else
      let callee ← g.constructed c
      check (callee.kind != .optionalChain)
      if ← eatMark "(" then
        let args ← commaSeparated ")" (spreadable g c)
        subscripts g c false start (← node .other start (callee :: args))
      else node .other start [callee]
  else if ← isWord "super" then superExpression g c false
  else if ← isWord "import" then importExpression g c false
  else subscripts g c false start (← primary g c)

def leftHandSide (g : Grammar) (c : Context) : Parser Tree := do
  let start ← position
  if ← isWord "super" then superExpression g c true
  else if ← isWord "import" then importExpression g c true
  else subscripts g c true start (← constructed g c)

def prefixMarks : List String := ["!", "~", "+", "-", "++", "--"]

def prefixWords : List String := ["delete", "typeof", "void"]

def awaited (g : Grammar) (c : Context) : Parser Tree := do
  let start ← position
  expectWord "await"
  check !(← isMark "*")
  if !c.async && ((← atSemicolon) || (← isMarkOf [")", "]", ","])) then node .identifier start []
  else node .prefixed start [← g.unary c]

def unary (g : Grammar) (c : Context) : Parser Tree := do
  let start ← position
  let operator := match ← token with
    | .mark m => prefixMarks.contains m
    | .word w false => prefixWords.contains w
    | _ => false
  if operator then
    let update ← isMarkOf ["++", "--"]
    eat
    if update then node .operation start [← g.unary c]
    else node .prefixed start (← attempt (g.unary c)).toList
  else if ← isWord "await" then awaited g c
  else
    let t ← leftHandSide g c
    if t.kind = .arrow || (← onNewLine) then return t
    if ← isMarkOf ["++", "--"] then
      eat
      node .operation start [t]
    else return t

/-- Operators with their operands. The first operand may be missing, or break off before an
operator. -/
def binary (g : Grammar) (c : Context) : Parser Tree := do
  let start ← position
  match ← attempt (operand g c) with
  | some first => if first.kind = .arrow then return first else binaryRest g c start first
  | none =>
    check ((← atBinary c) && !(← isMark "/"))
    binaryRest g c start (← node .other start [])

def conditional (g : Grammar) (c : Context) : Parser Tree := do
  let start ← position
  let test ← binary g c
  if test.kind = .arrow then return test
  if ← eatMark "?" then
    let yes ← g.assignment c.withIn
    expectMark ":"
    node .operation start [test, yes, ← g.assignment c]
  else return test

def compoundMarks : List String := [
  "+=", "-=", "*=", "/=", "%=", "**=", "<<=", ">>=", ">>>=", "&=", "|=", "^=", "&&=", "||=", "??="]

def yielded (g : Grammar) (c : Context) : Parser Tree := do
  let start ← position
  expectWord "yield"
  let bare := (← atSemicolon) || (← isMarkOf [")", "]", ",", ":"]) || (← isWord "in")
  if bare then node .operation start []
  else
    let _ ← eatMark "*"
    node .operation start [← g.assignment c]

def assignment (g : Grammar) (c : Context) : Parser Tree := do
  let start ← position
  modify fun s => { s with arrowStart := start }
  if c.yields && (← isWord "yield") then return ← yielded g c
  let target ← conditional g c
  if target.kind = .arrow then return target
  if ← isMark "=" then
    let target ← accept target target.asAssigned?
    eat
    node .assigned start [target, ← g.assignment c]
  else if ← isMarkOf compoundMarks then
    check target.isSimpleTarget
    eat
    node .operation start [target, ← g.assignment c]
  else return target

def expression (g : Grammar) (c : Context) : Parser Tree := do
  let start ← position
  let first ← assignment g c
  repeated [first] fun acc => do
    if ← eatMark "," then return .inl ((← g.assignment c) :: acc)
    match acc with
    | [t] => return .inr t
    | _ => return .inr (← node .other start acc.reverse)

def patternMember (g : Grammar) (c : Context) : Parser Tree := do
  let start ← position
  if ← eatMark "..." then return ← node .spread start [← g.binding c]
  let word := match ← token with
    | .word _ _ => true
    | _ => false
  let name ← propertyName g c
  if ← eatMark ":" then
    let target ← g.binding c
    node .keyValue start (name :: target :: (← initializer g c.withIn))
  else
    check word
    node .shorthand start (name :: (← initializer g c.withIn))

def patternItem (g : Grammar) (c : Context) : Parser Tree := do
  let start ← position
  if ← eatMark "..." then node .spread start [← g.binding c]
  else node .other start ((← g.binding c) :: (← initializer g c.withIn))

def restIsNamed (t : Tree) : Bool :=
  t.kind != .spread || t.children.all fun s => s.kind = .identifier

def binding (g : Grammar) (c : Context) : Parser Tree := do
  let start ← position
  if ← eatMark "[" then node .array start (← arrayElements (patternItem g c))
  else if ← eatMark "\x7b" then
    let members ← commaSeparated "\x7d" (patternMember g c)
    check (members.getLast?.all restIsNamed)
    node .object start members
  else identifier

end VisibleText.JavaScript
