import VisibleText.Pattern.Basic
import VisibleText.Pattern.Property
import VisibleText.Text.Blank
import VisibleText.Unicode.CaseFold

/-!
Reading patterns from their usual written form. There are no look-around groups and no
back-references; an escape of a letter or digit has to mean something; a brace after an atom has to
be a repetition. `Pattern.parse?` gives no pattern for a text that breaks these rules.
-/
namespace VisibleText.Pattern

structure Flags where
  ignoreCase : Bool := false
  multiLine : Bool := false
  dotAll : Bool := false
  lazy : Bool := false
  unicode : Bool := true
  crlf : Bool := false
  verbose : Bool := false
deriving DecidableEq, Repr, Inhabited

structure State where
  flags : Flags
  names : List (List Char)
  rest : List Char
deriving Inhabited

def skipVerbose (inComment : Bool) : List Char → List Char
  | [] => []
  | c :: cs =>
    if inComment then skipVerbose (c != '\n') cs
    else if isBlank c then skipVerbose false cs
    else if c = '#' then skipVerbose true cs
    else c :: cs

def skip (f : Flags) (cs : List Char) : List Char := if f.verbose then skipVerbose false cs else cs

def closeAsciiCase (s : CharSet) : CharSet :=
  let flip := fun (lo hi : Nat) (delta : Int) => (s.inter ⟨[(lo, hi)]⟩).runs.map fun r =>
    ((r.1 + delta).toNat, (r.2 + delta).toNat)
  .ofRuns (s.runs ++ flip 0x41 0x5A 32 ++ flip 0x61 0x7A (-32))

def foldCase (f : Flags) (s : CharSet) : CharSet :=
  if !f.ignoreCase then s else if f.unicode then Unicode.closeUnderCase s else closeAsciiCase s

def negate (f : Flags) (s : CharSet) : CharSet :=
  if f.unicode then s.compl else s.compl.inter ⟨[(0, 0xFF)]⟩

def foldAndNegate (f : Flags) (negated : Bool) (s : CharSet) : CharSet :=
  if negated then negate f (foldCase f s) else foldCase f s

def checkedSet (f : Flags) (s : CharSet) : Option Pattern :=
  if f.unicode || s.isAscii then some (chars s) else none

def asciiDigit : CharSet := ⟨[(0x30, 0x39)]⟩
def asciiSpace : CharSet := ⟨[(0x09, 0x0D), (0x20, 0x20)]⟩
def asciiWord : CharSet := ⟨[(0x30, 0x39), (0x41, 0x5A), (0x5F, 0x5F), (0x61, 0x7A)]⟩

def perlClass? (f : Flags) (c : Char) : Option CharSet :=
  let set := match c.toLower with
    | 'd' => some (if f.unicode then Unicode.category "Nd" else asciiDigit)
    | 's' => some (if f.unicode then ⟨blankRuns⟩ else asciiSpace)
    | 'w' => some (if f.unicode then Unicode.wordSet else asciiWord)
    | _ => none
  set.map fun s => if c.isUpper then negate f s else s

def asciiClasses : List (String × List (Nat × Nat)) := [
  ("alnum", [(0x30, 0x39), (0x41, 0x5A), (0x61, 0x7A)]),
  ("alpha", [(0x41, 0x5A), (0x61, 0x7A)]),
  ("ascii", [(0x00, 0x7F)]),
  ("blank", [(0x09, 0x09), (0x20, 0x20)]),
  ("cntrl", [(0x00, 0x1F), (0x7F, 0x7F)]),
  ("digit", [(0x30, 0x39)]),
  ("graph", [(0x21, 0x7E)]),
  ("lower", [(0x61, 0x7A)]),
  ("print", [(0x20, 0x7E)]),
  ("punct", [(0x21, 0x2F), (0x3A, 0x40), (0x5B, 0x60), (0x7B, 0x7E)]),
  ("space", [(0x09, 0x0D), (0x20, 0x20)]),
  ("upper", [(0x41, 0x5A)]),
  ("word", [(0x30, 0x39), (0x41, 0x5A), (0x5F, 0x5F), (0x61, 0x7A)]),
  ("xdigit", [(0x30, 0x39), (0x41, 0x46), (0x61, 0x66)])]

inductive Atom where
  | char (c : Char) (byte : Bool)
  | set (s : CharSet)
  | look (l : Look)

def isMeta (c : Char) : Bool := "\\.+*?()|[]\x7b\x7d^$#&-~".toList.contains c

def isEscapable (c : Char) : Bool :=
  isMeta c || (c.toNat < 0x80 && !c.isAlphanum && c != '<' && c != '>')

def hexValue? (c : Char) : Option Nat :=
  if '0' ≤ c ∧ c ≤ '9' then some (c.toNat - 0x30)
  else if 'a' ≤ c ∧ c ≤ 'f' then some (c.toNat - 0x61 + 10)
  else if 'A' ≤ c ∧ c ≤ 'F' then some (c.toNat - 0x41 + 10)
  else none

def charOfCode? (n : Nat) : Option Char :=
  if n < 0xD800 || (0xDFFF < n && n ≤ 0x10FFFF) then some (Char.ofNat n) else none

def hexDigits? (f : Flags) : Nat → Nat → List Char → Option (Nat × List Char)
  | 0, v, cs => some (v, cs)
  | n + 1, v, cs =>
    match skip f cs with
    | [] => none
    | c :: rest => do hexDigits? f n (16 * v + (← hexValue? c)) rest

def hexBraced? (f : Flags) (v : Option Nat) : Nat → List Char → Option (Nat × List Char)
  | 0, _ => none
  | fuel + 1, cs =>
    match skip f cs with
    | [] => none
    | '\x7d' :: rest => v.map (·, rest)
    | c :: rest => do hexBraced? f (some (16 * v.getD 0 + (← hexValue? c))) fuel rest

def hexEscape? (f : Flags) (digits : Nat) (cs : List Char) : Option (Atom × List Char) := do
  match skip f cs with
  | '\x7b' :: rest =>
    let (v, rest) ← hexBraced? f none (rest.length + 1) rest
    return (.char (← charOfCode? v) false, rest)
  | cs =>
    let (v, rest) ← hexDigits? f digits 0 cs
    return (.char (← charOfCode? v) (digits == 2), rest)

def splitAt? (sep : List Char) : List Char → Option (List Char × List Char)
  | [] => none
  | c :: cs =>
    if sep.isPrefixOf (c :: cs) then some ([], (c :: cs).drop sep.length)
    else (splitAt? sep cs).map fun (a, b) => (c :: a, b)

def propertyEscape? (f : Flags) (negated : Bool) (cs : List Char) : Option (Atom × List Char) := do
  if !f.unicode then none
  let fin := fun (negated : Bool) (s : CharSet) => Atom.set (foldAndNegate f negated s)
  match skip f cs with
  | '\x7b' :: rest =>
    let raw ← splitAt? ['\x7d'] rest
    let name := if f.verbose then raw.1.filter (!isBlank ·) else raw.1
    match splitAt? ['!', '='] name with
    | some (n, v) => return (fin (!negated) (← propertyValue? n v), raw.2)
    | none =>
      match splitAt? [':'] name <|> splitAt? ['='] name with
      | some (n, v) => return (fin negated (← propertyValue? n v), raw.2)
      | none => return (fin negated (← propertyNamed? name), raw.2)
  | c :: rest => if c = '\\' then none else return (fin negated (← propertyNamed? [c]), rest)
  | [] => none

def isBoundaryNameChar (c : Char) : Bool := c.isAlpha || c == '-'

def boundaryEscape? (f : Flags) (cs : List Char) : Option (Atom × List Char) :=
  let a := !f.unicode
  match cs with
  | '\x7b' :: rest =>
    match skip f rest with
    | [] => none
    | c :: more =>
      if !isBoundaryNameChar c then some (.look (.wordBoundary a), cs)
      else
        let named := (c :: more).takeWhile fun c => isBoundaryNameChar c || (f.verbose && isBlank c)
        let name := String.ofList (named.filter (!isBlank ·))
        match (c :: more).drop named.length with
        | '\x7d' :: rest =>
          if name = "start" then some (.look (.wordStart a), rest)
          else if name = "end" then some (.look (.wordEnd a), rest)
          else if name = "start-half" then some (.look (.wordStartHalf a), rest)
          else if name = "end-half" then some (.look (.wordEndHalf a), rest)
          else none
        | _ => none
  | _ => some (.look (.wordBoundary a), cs)

def escape? (f : Flags) : List Char → Option (Atom × List Char)
  | [] => none
  | c :: rest =>
    let ascii := !f.unicode
    match c with
    | 'x' => hexEscape? f 2 rest
    | 'u' => hexEscape? f 4 rest
    | 'U' => hexEscape? f 8 rest
    | 'p' => propertyEscape? f false rest
    | 'P' => propertyEscape? f true rest
    | 'a' => some (.char '\x07' false, rest)
    | 'f' => some (.char '\x0c' false, rest)
    | 't' => some (.char '\t' false, rest)
    | 'n' => some (.char '\n' false, rest)
    | 'r' => some (.char '\r' false, rest)
    | 'v' => some (.char '\x0b' false, rest)
    | 'A' => some (.look .textStart, rest)
    | 'z' => some (.look .textEnd, rest)
    | 'b' => boundaryEscape? f rest
    | 'B' => some (.look (.notWordBoundary ascii), rest)
    | '<' => some (.look (.wordStart ascii), rest)
    | '>' => some (.look (.wordEnd ascii), rest)
    | _ =>
      match perlClass? f c with
      | some s => some (.set s, rest)
      | none => if isEscapable c then some (.char c false, rest) else none

inductive SetOp where
  | intersection
  | difference
  | symmetricDifference

def SetOp.apply : SetOp → CharSet → CharSet → CharSet
  | intersection, a, b => a.inter b
  | difference, a, b => a.diff b
  | symmetricDifference, a, b => a.symmDiff b

def setOp? : List Char → Option SetOp
  | '&' :: '&' :: _ => some .intersection
  | '-' :: '-' :: _ => some .difference
  | '~' :: '~' :: _ => some .symmetricDifference
  | _ => none

def asciiClass? (f : Flags) : List Char → Option (CharSet × List Char)
  | ':' :: rest => do
    let (negated, rest) := match rest with
      | '^' :: rest => (true, rest)
      | rest => (false, rest)
    let name := rest.takeWhile (· != ':')
    match rest.drop name.length with
    | ':' :: ']' :: rest =>
      let runs ← asciiClasses.lookup (String.ofList name)
      let set : CharSet := ⟨runs⟩
      return (if negated then negate f set else set, rest)
    | _ => none
  | _ => none

def bound? (f : Flags) : Atom → Option Char
  | .char c _ => if f.unicode || c.toNat < 0x80 then some c else none
  | _ => none

def member? (f : Flags) : Atom → Option CharSet
  | .set s => some s
  | a => (bound? f a).map .singleton

def classAtom? (f : Flags) : List Char → Option (Atom × List Char)
  | '\\' :: rest => escape? f rest
  | c :: rest => some (.char c false, rest)
  | [] => none

def classItem? (f : Flags) (cs : List Char) : Option (CharSet × List Char) := do
  let (first, rest) ← classAtom? f cs
  let rest := skip f rest
  match rest with
  | [] => none
  | '-' :: more =>
    let next := (skip f more).head?
    if next = some ']' || (next = some '-') then return (← member? f first, rest)
    let (last, rest) ← classAtom? f (skip f more)
    let lo ← bound? f first
    let hi ← bound? f last
    if lo ≤ hi then return (.ofRange lo hi, rest) else none
  | _ => return (← member? f first, rest)

def leadingDashes (f : Flags) (acc : CharSet) : List Char → CharSet × List Char
  | '-' :: rest => leadingDashes f (acc.union (.singleton '-')) rest
  | c :: rest =>
    if f.verbose && isBlank c then leadingDashes f acc rest else (acc, skip f (c :: rest))
  | [] => (acc, [])

def classStart (f : Flags) (cs : List Char) : Bool × CharSet × List Char :=
  let (negated, cs) := match skip f cs with
    | '^' :: rest => (true, skip f rest)
    | cs => (false, cs)
  let (lead, cs) := leadingDashes f .empty cs
  match lead.isEmpty, cs with
  | true, ']' :: rest => (negated, .singleton ']', rest)
  | _, cs => (negated, lead, cs)

/-- Reads a class up to its closing bracket: `union` is what was read since the last operator,
`pending` that operator with the set on its left. -/
def classBody? (f : Flags) (negated : Bool) : Nat → Option (SetOp × CharSet) → CharSet → List Char →
    Option (CharSet × List Char)
  | 0, _, _, _ => none
  | fuel + 1, pending, union, cs =>
    let settled := match pending with
      | some (op, left) => op.apply (foldCase f left) (foldCase f union)
      | none => union
    match skip f cs with
    | [] => none
    | ']' :: rest => some (foldAndNegate f negated settled, rest)
    | '[' :: rest =>
      match asciiClass? f rest with
      | some (s, rest) => classBody? f negated fuel pending (union.union s) rest
      | none => do
        let (negated', lead, inner) := classStart f rest
        let (s, rest) ← classBody? f negated' fuel none lead inner
        classBody? f negated fuel pending (union.union s) rest
    | c :: rest =>
      match setOp? (c :: rest) with
      | some op => classBody? f negated fuel (some (op, settled)) .empty (rest.drop 1)
      | none => do
        let (s, rest) ← classItem? f (c :: rest)
        classBody? f negated fuel pending (union.union s) rest

def class? (f : Flags) (cs : List Char) : Option (CharSet × List Char) :=
  let (negated, lead, rest) := classStart f cs
  classBody? f negated (cs.length + 1) none lead rest

def maxCount : Nat := 0xFFFFFFFF

def count? (f : Flags) (cs : List Char) : Option (Option Nat × List Char) :=
  let cs := trimStart (skip f cs)
  let digits := cs.takeWhile Char.isDigit
  let rest := trimStart (skip f (cs.drop digits.length))
  if digits.isEmpty then some (none, rest)
  else
    let n := digits.foldl (fun n c => 10 * n + (c.toNat - 0x30)) 0
    if n ≤ maxCount then some (some n, rest) else none

def counts? (f : Flags) (cs : List Char) : Option ((Nat × Option Nat) × List Char) := do
  let (first, rest) ← count? f cs
  match rest with
  | '\x7d' :: rest => return ((← first, first), rest)
  | ',' :: rest =>
    match skip f rest with
    | '\x7d' :: rest => return ((← first, none), rest)
    | rest =>
      let least ← first
      let (last, rest) ← count? f rest
      let most ← last
      match rest with
      | '\x7d' :: rest => if least ≤ most then return ((least, some most), rest) else none
      | _ => none
  | _ => none

/-- How often the atom before is repeated, if a repetition stands here. The outer option is `none`
for a repetition that is not well formed. -/
def repetition? (f : Flags) : List Char → Option (Option ((Nat × Option Nat) × List Char))
  | '?' :: rest => some (some ((0, some 1), lazyMark rest))
  | '*' :: rest => some (some ((0, none), lazyMark rest))
  | '+' :: rest => some (some ((1, none), lazyMark rest))
  | '\x7b' :: rest => (counts? f rest).map fun (n, rest) => some (n, lazyMark (skip f rest))
  | _ => some none
where
  lazyMark : List Char → List Char
    | '?' :: rest => rest
    | rest => rest

def Flags.set (f : Flags) (on : Bool) : Char → Option Flags
  | 'i' => some { f with ignoreCase := on }
  | 'm' => some { f with multiLine := on }
  | 's' => some { f with dotAll := on }
  | 'U' => some { f with lazy := on }
  | 'u' => some { f with unicode := on }
  | 'R' => some { f with crlf := on }
  | 'x' => some { f with verbose := on }
  | _ => none

def flags? (f : Flags) (seen : List Char) : List Char → Option (Flags × List Char × List Char)
  | [] => none
  | c :: rest =>
    if c = ':' || c = ')' then
      if seen.head? = some '-' then none else some (f, seen, c :: rest)
    else if seen.contains c then none
    else if c = '-' then flags? f ('-' :: seen) rest
    else do flags? (← f.set (!seen.contains '-') c) (c :: seen) rest

def isAlphabetic (c : Char) : Bool := (Unicode.property "Alphabetic").contains c

def isAlphanumeric (c : Char) : Bool :=
  isAlphabetic c || (Unicode.categories ["Nd", "Nl", "No"]).contains c

def groupName? (cs : List Char) : Option (List Char × List Char) :=
  let name := cs.takeWhile (· != '>')
  match cs.drop name.length, name with
  | '>' :: rest, c :: more =>
    if (c = '_' || isAlphabetic c) && more.all fun c =>
        c == '_' || c == '.' || c == '[' || c == ']' || isAlphanumeric c
    then some (name, rest) else none
  | _, _ => none

inductive Opening where
  | group (inner : State)
  | modes (after : State)

def opening? (st : State) : Option Opening :=
  let lookAround := ["?=", "?!", "?<=", "?<!"]
  let cs := skip st.flags st.rest
  if lookAround.any fun l => l.toList.isPrefixOf cs then none
  else
    let name := match cs with
      | '?' :: 'P' :: '<' :: rest => some rest
      | '?' :: '<' :: rest => some rest
      | _ => none
    match name, cs with
    | some rest, _ => do
      let (name, rest) ← groupName? rest
      if st.names.contains name then none
      else return .group { st with names := name :: st.names, rest }
    | none, '?' :: rest => do
      let (flags, seen, rest) ← flags? st.flags [] rest
      match rest with
      | ':' :: rest => return .group { st with flags, rest }
      | _ => if seen.isEmpty then none else return .modes { st with flags, rest := rest.drop 1 }
    | none, cs => some (.group { st with rest := cs })

def charPattern? (f : Flags) (c : Char) (byte : Bool) : Option Pattern :=
  if !f.unicode && byte && 0x80 ≤ c.toNat then none
  else if f.unicode || c.toNat < 0x80 then some (chars (foldCase f (.singleton c)))
  else some (chars (.singleton c))

def dot? (f : Flags) : Option Pattern :=
  if !f.unicode then none
  else if f.dotAll then some (chars .all)
  else if f.crlf then some (chars (CharSet.ofChars ['\n', '\r']).compl)
  else some (chars (CharSet.singleton '\n').compl)

def primitive? (f : Flags) : List Char → Option (Pattern × List Char)
  | [] => none
  | '\\' :: rest => do
    let (a, rest) ← escape? f rest
    match a with
    | .char c byte => return (← charPattern? f c byte, rest)
    | .set s => return (← checkedSet f s, rest)
    | .look l => return (look l, rest)
  | '.' :: rest => do return (← dot? f, rest)
  | '^' :: rest => some (look (if f.multiLine then .lineStart f.crlf else .textStart), rest)
  | '$' :: rest => some (look (if f.multiLine then .lineEnd f.crlf else .textEnd), rest)
  | c :: rest => do return (← charPattern? f c false, rest)

structure Branches where
  finished : List Pattern := []
  current : List Pattern := []
  repeatable : Bool := false

namespace Branches

def push (b : Branches) (p : Pattern) : Branches :=
  { b with current := p :: b.current, repeatable := true }

def nextAlternative (b : Branches) : Branches :=
  { finished := seqAll b.current.reverse :: b.finished }

def toPattern (b : Branches) : Pattern := altAll b.nextAlternative.finished.reverse

def repeatLast? (b : Branches) (n : Nat × Option Nat) : Option Branches :=
  match b.repeatable, b.current with
  | true, p :: ps => some { b with current := .repeated p n.1 n.2 :: ps }
  | _, _ => none

end Branches

def alternatives? : Nat → Branches → State → Option (Pattern × State)
  | 0, _, _ => none
  | fuel + 1, b, st =>
    let f := st.flags
    match skip f st.rest with
    | [] => some (b.toPattern, { st with rest := [] })
    | ')' :: rest => some (b.toPattern, { st with rest := ')' :: rest })
    | '|' :: rest => alternatives? fuel b.nextAlternative { st with rest }
    | '(' :: rest => do
      match ← opening? { st with rest } with
      | .modes after => alternatives? fuel { b with repeatable := false } after
      | .group inner =>
        let (p, closed) ← alternatives? fuel {} inner
        match closed.rest with
        | ')' :: rest =>
          alternatives? fuel (b.push p) { flags := f, names := closed.names, rest }
        | _ => none
    | '[' :: rest => do
      let (s, rest) ← class? f rest
      alternatives? fuel (b.push (← checkedSet f s)) { st with rest }
    | cs =>
      match repetition? f cs with
      | none => none
      | some (some (n, rest)) => do alternatives? fuel (← b.repeatLast? n) { st with rest }
      | some none => do
        let (p, rest) ← primitive? f cs
        alternatives? fuel (b.push p) { st with rest }

def maxWeight : Nat := 10 <<< 20

def parse? (text : List Char) : Option Pattern := do
  let (p, st) ← alternatives? (text.length + 1) {} { flags := {}, names := [], rest := text }
  if st.rest.isEmpty && p.weight ≤ maxWeight then some p else none

end VisibleText.Pattern
