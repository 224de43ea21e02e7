import VisibleText.Span

namespace VisibleText.JavaScript

inductive Kind where
  | string
  | identifier
  | member
  | superMember
  | optionalChain
  | parenthesized
  | object
  | array
  | spread
  | keyValue
  | shorthand
  | shorthandDefault
  | method
  | propertyName
  | computedName
  | arrow
  | prefixed
  | operation
  | assigned
  | expressionStatement
  | importDeclaration
  | namedExport
  | exportAll
  | other
deriving Repr, DecidableEq, Inhabited

inductive Tree where
  | node (kind : Kind) (span : Span) (children : List Tree)
deriving Repr, Inhabited

namespace Tree

def kind : Tree → Kind
  | node k _ _ => k

def span : Tree → Span
  | node _ s _ => s

def children : Tree → List Tree
  | node _ _ cs => cs

mutual

def strings : Tree → List Tree
  | node .string s cs => node .string s cs :: allStrings cs
  | node _ _ cs => allStrings cs

def allStrings : List Tree → List Tree
  | [] => []
  | t :: ts => strings t ++ allStrings ts

end

def isSimpleTarget (t : Tree) : Bool :=
  match t.kind with
  | .identifier | .member | .superMember | .optionalChain | .parenthesized => true
  | _ => false

def isPattern (t : Tree) : Bool := t.kind = .object || t.kind = .array

inductive Role where
  | binds
  | assigns
deriving Repr, DecidableEq

def gap (t : Tree) : Tree := node .other t.span []

def asTarget (r : Role) (t : Tree) : Tree :=
  match r, t.kind with
  | _, .identifier => t
  | .binds, _ => t.gap
  | .assigns, .operation | .assigns, .prefixed | .assigns, .arrow | .assigns, .optionalChain => t.gap
  | .assigns, _ => t

mutual

/-- An expression read again as a pattern. What cannot be a part of one is left out, except that an
object with code for a member is no pattern at all. -/
def asPattern? (r : Role) : Tree → Option Tree
  | node .array s cs => do return node .array s (← itemsAsPatterns? r cs)
  | node .object s cs => do return node .object s (← membersAsPatterns? r cs)
  | node .assigned s [target, value] => do
    if target.isPattern then return node .assigned s [target, value]
    return node .assigned s [← asPattern? r target, value]
  | t => some (t.asTarget r)

def itemsAsPatterns? (r : Role) : List Tree → Option (List Tree)
  | [] => some []
  | [node .spread s [t]] => do return [node .spread s [← asPattern? r t]]
  | node .spread _ _ :: ts => itemsAsPatterns? r ts
  | t :: ts => do return (← asPattern? r t) :: (← itemsAsPatterns? r ts)

def membersAsPatterns? (r : Role) : List Tree → Option (List Tree)
  | [] => some []
  | node .method _ _ :: _ => none
  | node .keyValue s [name, t] :: ts => do
    return node .keyValue s [name, ← asPattern? r t] :: (← membersAsPatterns? r ts)
  | node .spread s [t] :: ts => do
    let rest ← if r = .binds then pure (t.asTarget r) else asPattern? r t
    return node .spread s [rest] :: (← membersAsPatterns? r ts)
  | t :: ts => do return t :: (← membersAsPatterns? r ts)

end

def asAssigned? (t : Tree) : Option Tree :=
  if t.isPattern then t.asPattern? .assigns
  else if t.isSimpleTarget then some t
  else none

mutual

/-- The bodies, without the quotes, of the string literals that can hold text: not names of
properties, not parts of import declarations and of exports from elsewhere, and not a literal that
is a whole statement. -/
def literalBodies : Tree → List Span
  | node .string s _ => if s.start + 2 ≤ s.stop then [⟨s.start + 1, s.stop - 1⟩] else []
  | node .propertyName _ _ => []
  | node .importDeclaration _ _ => []
  | node .namedExport _ _ => []
  | node .exportAll _ _ => []
  | node .expressionStatement _ [node .string _ _] => []
  | node _ _ cs => allLiteralBodies cs

def allLiteralBodies : List Tree → List Span
  | [] => []
  | t :: ts => literalBodies t ++ allLiteralBodies ts

end

def literals (t : Tree) : List Span := t.literalBodies.mergeSort fun a b => a.start ≤ b.start

end Tree

end VisibleText.JavaScript
