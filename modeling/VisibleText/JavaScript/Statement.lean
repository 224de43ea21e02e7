import VisibleText.JavaScript.Expression

namespace VisibleText.JavaScript

open VisibleText.JavaScript.Parser

inductive VariableKind where
  | var
  | let_
  | const
deriving DecidableEq, Repr

/-- Whether a pattern may stand here without a value: in the head of a loop over something, or, for
`const`, wherever a statement may be. -/
def patternNeedsNoValue (kind : VariableKind) (inLoop : Bool) : Parser Bool := do
  if inLoop then
    if ← isWord "in" then return true
    isWord "of"
  else return kind = .const

def declarator (g : Grammar) (c : Context) (kind : VariableKind) (inLoop : Bool) : Parser Tree := do
  let start ← position
  check !(kind ≠ .var && (← isWord "let"))
  let name ← g.binding c
  let value ← initializer g c
  check (name.kind == .identifier || !value.isEmpty || (← patternNeedsNoValue kind inLoop))
  node .other start (name :: value)

def declarators (g : Grammar) (c : Context) (kind : VariableKind) (inLoop : Bool) :
    Parser (List Tree) :=
  repeated [] fun acc => do
    if (← isMark ";") || (← isFinish) then return .inr acc.reverse
    let t ← declarator g c kind inLoop
    if ← eatMark "," then return .inl (t :: acc)
    return .inr (t :: acc).reverse

def skipStatement : Parser Unit :=
  repeated () fun _ => do
    if ← eatSemicolon then return .inr ()
    passOver advance
    return if (← token) = .bad then .inr () else .inl ()

def variableKind : Parser VariableKind := do
  let word ← token
  eat
  return if word = .word "var" false then .var else if word = .word "const" false then .const else .let_

def declaration (g : Grammar) (c : Context) : Parser Tree := do
  let start ← position
  let vars ← declarators g c.withIn (← variableKind) false
  let t ← node .other start vars
  if !(← eatSemicolon) then
    forget (g.expression c.withIn)
    skipStatement
  return t

def followsLet : Token → Bool
  | .mark m => m = "[" || m = "\x7b"
  | .word w _ => !reserved.contains w
  | _ => false

def atVariables (decl : Bool) : Parser Bool := do
  match ← token with
  | .word "var" false => return true
  | .word "const" false => return decl
  | .word "let" false => return decl && followsLet (← peek).token
  | _ => return false

def condition (g : Grammar) (c : Context) : Parser Tree := do
  expectMark "("
  let t ← g.expression c.withIn
  expectMark ")"
  return t

def ifStatement (g : Grammar) (c : Context) : Parser Tree := do
  let start ← position
  expectWord "if"
  let test ← condition g c
  let yes ← g.statement c.inner false
  let no ← if ← eatWord "else" then pure [← g.statement c.inner false] else pure []
  node .other start (test :: yes :: no)

def whileStatement (g : Grammar) (c : Context) : Parser Tree := do
  let start ← position
  eat
  let head ← condition g c
  node .other start [head, ← g.statement c.inner false]

def doStatement (g : Grammar) (c : Context) : Parser Tree := do
  let start ← position
  expectWord "do"
  let body ← g.statement c.inner false
  expectWord "while"
  let test ← condition g c
  let _ ← eatMark ";"
  node .other start [body, test]

def countingHead (g : Grammar) (c : Context) : Parser (List Tree) := do
  let test ← if ← isMark ";" then pure [] else pure [← g.expression c.withIn]
  expectMark ";"
  let step ← if ← isMark ")" then pure [] else pure [← g.expression c.withIn]
  return test ++ step

def iteratingHead? (g : Grammar) (c : Context) (awaits : Bool) : Parser (Option (List Tree)) := do
  if ← eatWord "of" then return some [← g.assignment c.withIn]
  if ← eatWord "in" then
    check !awaits
    return some [← g.expression c.withIn]
  return none

def loopHead (g : Grammar) (c : Context) (awaits : Bool) : Parser (List Tree) := do
  if ← eatMark ";" then
    check !awaits
    return ← countingHead g c
  let outer := { c with allowIn := false }
  let first ←
    if ← atVariables true then
      let start ← position
      let kind ← variableKind
      node .other start (← declarators g (if kind = .var then outer else c.withIn) kind true)
    else
      let t ← g.expression outer
      let iterates := (← isWord "of") || (← isWord "in")
      if iterates && t.isPattern then accept t (t.asPattern? .assigns) else pure t
  match ← iteratingHead? g c awaits with
  | some iterated => return first :: iterated
  | none =>
    check !awaits
    expectMark ";"
    return first :: (← countingHead g c)

def forStatement (g : Grammar) (c : Context) : Parser Tree := do
  let start ← position
  expectWord "for"
  let awaits ← eatWord "await"
  expectMark "("
  let head ← loopHead g c awaits
  expectMark ")"
  node .other start (head ++ [← g.statement c.inner false])

def caseBody (g : Grammar) (c : Context) : Parser (List Tree) :=
  repeated [] fun acc => do
    if (← isWord "case") || (← isWord "default") || (← isMark "\x7d") || (← isFinish) then
      return .inr acc.reverse
    return .inl ((← g.statement c.inner true) :: acc)

def switchStatement (g : Grammar) (c : Context) : Parser Tree := do
  let start ← position
  expectWord "switch"
  let subject ← condition g c
  expectMark "\x7b"
  let cases ← repeated (([] : List Tree), false) fun (acc, hasDefault) => do
    if ← eatWord "case" then
      let test ← g.expression c.withIn
      expectMark ":"
      return .inl ((← caseBody g c).reverse ++ test :: acc, hasDefault)
    if ← eatWord "default" then
      check !hasDefault
      expectMark ":"
      return .inl ((← caseBody g c).reverse ++ acc, true)
    expectMark "\x7d"
    return .inr acc.reverse
  node .other start (subject :: cases)

def handler (g : Grammar) (c : Context) : Parser (List Tree) := do
  if ← eatWord "catch" then
    let parameter ←
      if ← eatMark "(" then
        let t ← g.binding c
        expectMark ")"
        pure [t]
      else pure []
    return parameter ++ (← block g c)
  else return []

def finalizer (g : Grammar) (c : Context) : Parser (List Tree) := do
  if ← eatWord "finally" then block g c else return []

def tryStatement (g : Grammar) (c : Context) : Parser Tree := do
  let start ← position
  expectWord "try"
  let body ← block g c
  let caught ← handler g c
  node .other start (body ++ caught ++ (← finalizer g c))

def strayHandler (g : Grammar) (c : Context) : Parser Tree := do
  let start ← position
  forget (handler g c)
  forget (finalizer g c)
  node .other start []

def jumpStatement : Parser Tree := do
  let start ← position
  eat
  if !(← eatSemicolon) then
    let _ ← identifier
    semicolon
  node .other start []

def returnStatement (g : Grammar) (c : Context) : Parser Tree := do
  let start ← position
  expectWord "return"
  let value ← if ← atSemicolon then pure [] else pure [← g.expression c.withIn]
  semicolon
  node .other start value

def throwStatement (g : Grammar) (c : Context) : Parser Tree := do
  let start ← position
  expectWord "throw"
  check !(← onNewLine)
  let value ← g.expression c.withIn
  semicolon
  node .other start [value]

def expressionStatement (g : Grammar) (c : Context) : Parser Tree := do
  let start ← position
  let t ← expression g c.withIn
  if t.kind = .identifier && (← isMark ":") then
    eat
    if ← isWord "function" then check ((← peek).token != .mark "*")
    return ← node .other start [t, ← g.statement c.inner false]
  if ← eatSemicolon then return ← node .expressionStatement start [t]
  check (← atBinary c.withIn)
  node .expressionStatement start [← binaryRest g c.withIn start t]

def awaitRest (g : Grammar) (c : Context) (start : Nat) (operand : Tree) : Parser Tree := do
  let t ← binaryRest g c.withIn start operand
  let _ ← eatSemicolon
  node .expressionStatement start [t]

def atResources : Parser Bool := do
  let next ← peek
  match next.token with
  | .word w _ => return (← isWord "using") && !next.onNewLine && !reserved.contains w
  | _ => return false

def resources (g : Grammar) (c : Context) (start : Nat) : Parser Tree := do
  expectWord "using"
  node .other start (← declarators g c.withIn .var false)

def awaitResources (g : Grammar) (c : Context) : Parser Tree := do
  let start ← position
  expectWord "await"
  if ← atResources then resources g c start
  else awaitRest g c start (← node .prefixed start [← g.unary c.withIn])

def awaitStatement (g : Grammar) (c : Context) (decl : Bool) : Parser Tree := do
  if decl && (← peek).token = .word "using" false then awaitResources g c
  else if c.topLevel then
    let start ← position
    awaitRest g c start (← awaited g c.withIn)
  else expressionStatement g c

def importStatement (g : Grammar) (c : Context) : Parser Tree := do
  let start ← position
  let t ← expression g c
  let _ ← eatSemicolon
  node .expressionStatement start [t]

def statement (g : Grammar) (c : Context) (decl : Bool) : Parser Tree := do
  let start ← position
  if ← atVariables decl then return ← declaration g c
  match ← token with
  | .mark ";" => leaf .other
  | .mark "\x7b" => node .other start (← block g c)
  | .word "if" false => ifStatement g c
  | .word "while" false => whileStatement g c
  | .word "with" false => whileStatement g c
  | .word "do" false => doStatement g c
  | .word "for" false => forStatement g c
  | .word "switch" false => switchStatement g c
  | .word "try" false => tryStatement g c
  | .word "catch" false => strayHandler g c
  | .word "finally" false => strayHandler g c
  | .word "import" false => importStatement g c
  | .word "break" false => jumpStatement
  | .word "continue" false => jumpStatement
  | .word "return" false => returnStatement g c
  | .word "throw" false => throwStatement g c
  | .word "debugger" false =>
    eat
    semicolon
    node .other start []
  | .word "function" false =>
    eat
    functionRest g start false true
  | .word "class" false =>
    eat
    classRest g c start true
  | .word "async" false =>
    let next ← peek
    if next.token = .word "function" false && !next.onNewLine then
      eat
      eat
      functionRest g start true true
    else expressionStatement g c
  | .word "await" false => awaitStatement g c decl
  | .word "using" false =>
    if decl && (← atResources) then resources g c start else expressionStatement g c
  | _ => expressionStatement g c

end VisibleText.JavaScript
