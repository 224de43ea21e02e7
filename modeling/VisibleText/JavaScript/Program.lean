import VisibleText.JavaScript.Statement

namespace VisibleText.JavaScript

open VisibleText.JavaScript.Parser

def exportedName : Parser Tree := do
  match ← token with
  | .word _ _ => leaf .identifier
  | .string => literal
  | _ => fail

def moduleSource (g : Grammar) (c : Context) : Parser (List Tree) := do
  let source ← literal
  let start ← position
  let described := ((← isWord "with") || (← isWord "assert")) && !(← onNewLine)
  if described then
    eat
    expectMark "\x7b"
    return [source, ← node .object start (← commaSeparated "\x7d" (objectMember g c))]
  else return [source]

def importSpecifier : Parser Tree := do
  let start ← position
  let first ← token
  let name ← exportedName
  if ← eatWord "as" then node .other start [name, ← identifier]
  else
    match first with
    | .word w _ => check (!reserved.contains w)
    | _ => fail
    node .other start [name]

def importNamespace : Parser Tree := do
  expectMark "*"
  expectWord "as"
  identifier

def importClause : Parser (List Tree) := do
  if ← isMark "*" then return [← importNamespace]
  if ← eatMark "\x7b" then return ← commaSeparated "\x7d" importSpecifier
  let name ← identifier
  if ← eatMark "," then
    if ← eatMark "\x7b" then return name :: (← commaSeparated "\x7d" importSpecifier)
    if ← isMark "*" then return [name, ← importNamespace]
  return [name]

def importDeclaration (g : Grammar) (c : Context) : Parser Tree := do
  let start ← position
  expectWord "import"
  let clause ←
    if (← token) = .string then pure []
    else
      let names ← importClause
      expectWord "from"
      pure names
  let source ← moduleSource g c
  semicolon
  node .importDeclaration start (clause ++ source)

def exportSpecifier : Parser Tree := do
  let start ← position
  let name ← exportedName
  let alias_ ← if ← eatWord "as" then pure [← exportedName] else pure []
  node .other start (name :: alias_)

def exportAll (g : Grammar) (c : Context) (start : Nat) : Parser Tree := do
  expectMark "*"
  let name ← if ← eatWord "as" then pure [← exportedName] else pure []
  expectWord "from"
  let source ← moduleSource g c
  let _ ← eatSemicolon
  node (if name.isEmpty then .exportAll else .namedExport) start (name ++ source)

def exportNames (g : Grammar) (c : Context) (start : Nat) : Parser Tree := do
  expectMark "\x7b"
  let names ← commaSeparated "\x7d" exportSpecifier
  let source ←
    if ← eatWord "from" then moduleSource g c
    else
      check (names.all fun t => t.children.head?.all (·.kind != .string))
      pure []
  let _ ← eatSemicolon
  node .namedExport start (names ++ source)

def exportDefault (g : Grammar) (c : Context) (start : Nat) : Parser Tree := do
  expectWord "default"
  let here ← position
  if ← eatWord "function" then
    return ← node .other start [← functionRest g here false false]
  if ← eatWord "class" then
    return ← node .other start [← classRest g c here false]
  if ← isWord "async" then
    let next ← peek
    if next.token = .word "function" false && !next.onNewLine then
      eat
      eat
      return ← node .other start [← functionRest g here true false]
  let value ← g.assignment c.withIn
  semicolon
  node .other start [value]

def atDeclaration : Parser Bool := do
  if ← atVariables true then return true
  match ← token with
  | .word "function" false => return true
  | .word "class" false => return true
  | .word "async" false =>
    let next ← peek
    return next.token = .word "function" false && !next.onNewLine
  | _ => return false

def exportDeclaration (g : Grammar) (c : Context) : Parser Tree := do
  let start ← position
  expectWord "export"
  if ← isMark "*" then exportAll g c start
  else if ← isMark "\x7b" then exportNames g c start
  else if ← isWord "default" then exportDefault g c start
  else
    check (← atDeclaration)
    node .other start [← g.statement c true]

def item (g : Grammar) : Parser Tree := do
  let c := Context.program
  let next := (← peek).token
  if ← isWord "export" then exportDeclaration g c
  else if (← isWord "import") && next != .mark "(" && next != .mark "." then importDeclaration g c
  else statement g c true

def program (g : Grammar) : Parser Tree := do
  let items ← repeated [] fun acc => do
    if ← isFinish then return .inr acc.reverse
    return .inl ((← item g) :: acc)
  node .other 0 items

def grammar : Nat → Grammar
  | 0 => ⟨fun _ => fail, fun _ => fail, fun _ => fail, fun _ => fail, fun _ => fail, fun _ => fail,
      fun _ _ => fail⟩
  | depth + 1 =>
    let g := grammar depth
    ⟨expression g, assignment g, unary g, leftHandSide g, constructed g, binding g, statement g⟩

def afterInterpreter : List Char → List Char
  | '#' :: '!' :: rest => rest.dropWhile (!isLineEnd ·)
  | cs => cs

/-- What reading a program gives: its tree, the string tokens in it, and those of them that are not in the tree. -/
structure Outcome where
  tree : Tree
  strings : List Span
  passed : List Span

def firstLexeme (code : List Char) : Lexeme :=
  let rest := afterInterpreter code
  lexemeFrom ⟨byteLength code - byteLength rest, rest⟩ true

/-- Reads a program. Of two parts of the grammar inside each other one takes a token before the next, so the number of
characters bounds their depth. -/
def read? (code : List Char) : Option Outcome :=
  let start := byteLength code - byteLength (afterInterpreter code)
  let (tree, after) := (program (grammar (2 * code.length + 4))).run ⟨firstLexeme code, start, 0, [], []⟩
  tree.map fun t => ⟨t, after.strings.reverse, after.passed⟩

def parse? (code : List Char) : Option Tree := (read? code).map Outcome.tree

def unmarked : List Char → List Char
  | '\ufeff' :: rest => rest
  | code => code

def program? (code : List Char) : Option Tree := parse? (unmarked code)

def literals? (code : List Char) : Option (List Span) := (program? code).map Tree.literals

end VisibleText.JavaScript
