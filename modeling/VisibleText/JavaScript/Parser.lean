import VisibleText.JavaScript.Token
import VisibleText.JavaScript.Tree

/-!
The state of reading a program and the steps that all parts of the grammar share. A reader that
fails leaves the state where it failed, so that a statement can be resumed behind a fault.
-/

namespace VisibleText.JavaScript

structure State where
  lexeme : Lexeme
  lastStop : Nat
  /-- Where the innermost assignment expression starts: only there may an arrow function stand. -/
  arrowStart : Nat
  strings : List Span
  passed : List Span
deriving Inhabited

namespace State

/-- The state with the string tokens that have been read since an earlier one as left out. -/
def passFrom (before s : State) : State :=
  { s with passed := s.strings.take (s.strings.length - before.strings.length) ++ s.passed }

def passLost (old new : List Tree) (s : State) : State :=
  let kept := (Tree.allStrings new).map Tree.span
  { s with passed := ((Tree.allStrings old).map Tree.span).filter (!kept.contains ·) ++ s.passed }

end State

abbrev Parser := OptionT (StateM State)

structure Context where
  yields : Bool
  async : Bool
  allowIn : Bool
  allowSuper : Bool
  topLevel : Bool
deriving Repr, DecidableEq, Inhabited

namespace Context

def program : Context := ⟨false, false, true, false, true⟩

def inner (c : Context) : Context := { c with topLevel := false }

def withIn (c : Context) : Context := { c with allowIn := true }

def function (async generator allowSuper : Bool) : Context :=
  ⟨generator, async, true, allowSuper, false⟩

end Context

structure Grammar where
  expression : Context → Parser Tree
  assignment : Context → Parser Tree
  unary : Context → Parser Tree
  leftHandSide : Context → Parser Tree
  constructed : Context → Parser Tree
  binding : Context → Parser Tree
  statement : Context → Bool → Parser Tree

namespace Parser

def fail {α : Type} : Parser α := OptionT.fail

def check (b : Bool) : Parser Unit := if b then pure () else fail

def passOver {α : Type} (p : Parser α) : Parser α := fun s =>
  let (result, after) := p s
  (result, s.passFrom after)

def forget {α : Type} (p : Parser α) : Parser Unit := fun s => (some (), s.passFrom (p s).2)

def attempt {α : Type} (p : Parser α) : Parser (Option α) := fun s =>
  match p s with
  | (some a, after) => (some (some a), after)
  | (none, after) => (some none, s.passFrom after)

def lexeme : Parser Lexeme := do return (← get).lexeme

def token : Parser Token := do return (← lexeme).token

def position : Parser Nat := do return (← lexeme).here.offset

def onNewLine : Parser Bool := do return (← lexeme).onNewLine

def peek : Parser Lexeme := do return lexemeFrom (← lexeme).next false

def resume (c : Cursor) : Parser Unit :=
  modify fun s => { s with lexeme := lexemeFrom c false, lastStop := c.offset }

def advance : Parser Unit := do
  let l ← lexeme
  if l.token = .string then modify fun s => { s with strings := l.span :: s.strings }
  resume l.next

def eat : Parser Unit := do
  check ((← token) != .string)
  advance

def isMark (m : String) : Parser Bool := do return (← token) = .mark m

def isWord (w : String) : Parser Bool := do return (← token) = .word w false

def isFinish : Parser Bool := do return (← token) = .finish

def eatMark (m : String) : Parser Bool := do
  if ← isMark m then eat; return true else return false

def eatWord (w : String) : Parser Bool := do
  if ← isWord w then eat; return true else return false

def expectMark (m : String) : Parser Unit := do check (← eatMark m)

def expectWord (w : String) : Parser Unit := do check (← eatWord w)

def isMarkOf (ms : List String) : Parser Bool := do
  match ← token with
  | .mark m => return ms.contains m
  | _ => return false

def atSemicolon : Parser Bool := do
  if ← isMarkOf [";", "\x7d"] then return true
  if ← isFinish then return true
  onNewLine

def eatSemicolon : Parser Bool := do
  let stands ← atSemicolon
  let _ ← eatMark ";"
  return stands

def semicolon : Parser Unit := do check (← eatSemicolon)

def node (kind : Kind) (start : Nat) (children : List Tree) : Parser Tree := do
  return .node kind ⟨start, (← get).lastStop⟩ children

def leaf (kind : Kind) : Parser Tree := do
  let start ← position
  eat
  node kind start []

def literal : Parser Tree := do
  check ((← token) = .string)
  let start ← position
  advance
  node .string start []

def iterate {σ α : Type} (step : σ → Parser (σ ⊕ α)) : Nat → σ → Parser α
  | 0, _ => fail
  | fuel + 1, s => do
    match ← step s with
    | .inl s => iterate step fuel s
    | .inr a => return a

/-- Repeats a step until it has a result. A step that goes on has to read a token, so the
characters that are left bound the repetitions. -/
def repeated {σ α : Type} (s : σ) (step : σ → Parser (σ ⊕ α)) : Parser α := do
  iterate step ((← lexeme).here.rest.length + 2) s

def commaSeparated (close : String) (item : Parser Tree) : Parser (List Tree) :=
  repeated [] fun acc => do
    if ← eatMark close then return .inr acc.reverse
    let t ← item
    if ← eatMark "," then return .inl (t :: acc)
    expectMark close
    return .inr (t :: acc).reverse

def reserved : List String := [
  "break", "case", "catch", "class", "const", "continue", "debugger", "default", "delete", "do",
  "else", "export", "extends", "false", "finally", "for", "function", "if", "import", "in",
  "instanceof", "new", "null", "return", "super", "switch", "this", "throw", "true", "try",
  "typeof", "var", "void", "while", "with"]

def identifier : Parser Tree := do
  match ← token with
  | .word w _ => check (!reserved.contains w); leaf .identifier
  | _ => fail

end Parser

end VisibleText.JavaScript
