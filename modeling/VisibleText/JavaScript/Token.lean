import VisibleText.Span
import VisibleText.Text.Utf8
import VisibleText.Unicode.Property

namespace VisibleText.JavaScript

structure Cursor where
  offset : Nat
  rest : List Char
deriving Repr, DecidableEq, Inhabited

def Cursor.skip (c : Cursor) (n : Nat) : Cursor :=
  ⟨c.offset + byteLength (c.rest.take n), c.rest.drop n⟩

def Cursor.skipWhile (c : Cursor) (p : Char → Bool) : Cursor :=
  ⟨c.offset + byteLength (c.rest.takeWhile p), c.rest.dropWhile p⟩

inductive Token where
  | word (name : String) (escaped : Bool)
  | privateName
  | number
  | string
  | mark (text : String)
  | finish
  | bad
deriving Repr, DecidableEq, Inhabited

def isLineEnd (c : Char) : Bool :=
  c = '\n' || c = '\r' || c = '\u2028' || c = '\u2029'

def isSpace (c : Char) : Bool :=
  c = ' ' || c = '\t' || c = '\x0b' || c = '\x0c' || c = '\u0085' || c = '\u00a0' || c = '\ufeff' || c = '\u1680' ||
    ('\u2000' ≤ c && c ≤ '\u200a') || c = '\u202f' || c = '\u205f' || c = '\u3000'

def identifierStart : CharSet := Unicode.property "ID_Start"

def identifierContinue : CharSet := Unicode.property "ID_Continue"

def isIdentifierStart (c : Char) : Bool :=
  c.isAlpha || c = '$' || c = '_' || (127 < c.toNat && identifierStart.contains c)

def isIdentifierPart (c : Char) : Bool :=
  c.isAlphanum || c = '$' || c = '_' || c = '\u200c' || c = '\u200d' ||
    (127 < c.toNat && identifierContinue.contains c)

def hexDigit? (c : Char) : Option Nat :=
  if c.isDigit then some (c.toNat - '0'.toNat)
  else if 'a' ≤ c ∧ c ≤ 'f' then some (c.toNat - 'a'.toNat + 10)
  else if 'A' ≤ c ∧ c ≤ 'F' then some (c.toNat - 'A'.toNat + 10)
  else none

def hexValue? (cs : List Char) : Option Nat :=
  cs.foldl (fun v c => do return (← v) * 16 + (← hexDigit? c)) (some 0)

def afterBlockComment : List Char → Bool → List Char × Bool
  | [], line => ([], line)
  | '*' :: '/' :: rest, line => (rest, line)
  | c :: rest, line => afterBlockComment rest (line || isLineEnd c)

/-- Skips blanks and comments, with whether a line ended among them. Besides `//` and `/* */`,
`<!--` comments out the rest of its line, and so does `-->` where nothing stands before it on its
line. -/
def skipBlanks : Nat → List Char → Bool → List Char × Bool
  | 0, cs, line => (cs, line)
  | fuel + 1, cs, line =>
    match cs with
    | '/' :: '/' :: rest => skipBlanks fuel (rest.dropWhile (!isLineEnd ·)) line
    | '/' :: '*' :: rest =>
      let (rest, line) := afterBlockComment rest line
      skipBlanks fuel rest line
    | '<' :: '!' :: '-' :: '-' :: rest => skipBlanks fuel (rest.dropWhile (!isLineEnd ·)) line
    | '-' :: '-' :: '>' :: rest =>
      if line then skipBlanks fuel (rest.dropWhile (!isLineEnd ·)) line else (cs, line)
    | c :: rest =>
      if isLineEnd c then skipBlanks fuel rest true
      else if isSpace c then skipBlanks fuel rest line
      else (cs, line)
    | [] => ([], line)

def unicodeEscape? : List Char → Option (Nat × Nat)
  | '\x7b' :: rest =>
    let digits := rest.takeWhile (· != '\x7d')
    match rest.drop digits.length, hexValue? digits with
    | '\x7d' :: _, some v =>
      if digits.isEmpty || v > 0x10ffff then none else some (v, digits.length + 2)
    | _, _ => none
  | rest =>
    let digits := rest.take 4
    if digits.length = 4 then (hexValue? digits).map (·, 4) else none

def identifierFrom : Nat → List Char → List Char → Bool → Option (List Char × Bool × List Char)
  | 0, _, _, _ => none
  | fuel + 1, cs, name, escaped =>
    let fits := if name.isEmpty then isIdentifierStart else isIdentifierPart
    match cs with
    | '\\' :: 'u' :: rest => do
      let (v, n) ← unicodeEscape? rest
      let c := Char.ofNat v
      if fits c then identifierFrom fuel (rest.drop n) (c :: name) true else none
    | '\\' :: _ => none
    | c :: rest =>
      if fits c then identifierFrom fuel rest (c :: name) escaped
      else if name.isEmpty then none else some (name.reverse, escaped, cs)
    | [] => if name.isEmpty then none else some (name.reverse, escaped, [])

def isDigitOf (base : Nat) (c : Char) : Bool :=
  match hexDigit? c with
  | some d => d < base
  | none => false

def digits (base : Nat) (cs : List Char) : List Char × List Char :=
  let p := fun c => isDigitOf base c || c = '_'
  (cs.takeWhile p, cs.dropWhile p)

def endOfNumber? (rest : List Char) : Option (List Char) :=
  match rest with
  | c :: _ => if isIdentifierStart c || c = '\\' then none else some rest
  | [] => some rest

def radixNumber? (base : Nat) (cs : List Char) : Option (List Char) :=
  match digits base cs with
  | ([], _) => none
  | (_, 'n' :: rest) => endOfNumber? rest
  | (_, rest) => endOfNumber? rest

def exponent? (rest : List Char) : Option (List Char) :=
  match rest with
  | e :: after =>
    if e = 'e' || e = 'E' then
      let unsigned := match after with
        | '+' :: r => r
        | '-' :: r => r
        | r => r
      match unsigned with
      | d :: _ => if d.isDigit then endOfNumber? (digits 10 unsigned).2 else none
      | [] => none
    else endOfNumber? rest
  | [] => some []

def number? (cs : List Char) : Option (List Char) :=
  match cs with
  | '0' :: 'x' :: r => radixNumber? 16 r
  | '0' :: 'X' :: r => radixNumber? 16 r
  | '0' :: 'o' :: r => radixNumber? 8 r
  | '0' :: 'O' :: r => radixNumber? 8 r
  | '0' :: 'b' :: r => radixNumber? 2 r
  | '0' :: 'B' :: r => radixNumber? 2 r
  | '.' :: r => exponent? (digits 10 r).2
  | _ =>
    let (whole, rest) := digits 10 cs
    let octal := match whole with
      | '0' :: d :: ds => (d :: ds).all (isDigitOf 8)
      | _ => false
    match rest with
    | 'n' :: r => endOfNumber? r
    | '.' :: r => if octal then endOfNumber? rest else exponent? (digits 10 r).2
    | _ => if octal then endOfNumber? rest else exponent? rest

def escapeLength? : List Char → Option Nat
  | [] => none
  | 'x' :: rest =>
    let ds := rest.take 2
    if ds.length = 2 && ds.all (isDigitOf 16) then some 3 else none
  | 'u' :: rest => (unicodeEscape? rest).map (·.2 + 1)
  | '\r' :: '\n' :: _ => some 2
  | _ :: _ => some 1

/-- The rest after a string, from behind its opening quote. A string that is not closed on its
line ends with the line. -/
def string? (quote : Char) : Nat → List Char → Option (List Char)
  | 0, _ => none
  | _ + 1, [] => some []
  | fuel + 1, c :: rest =>
    if c = quote then some rest
    else if c = '\n' || c = '\r' then some (c :: rest)
    else if c = '\\' then do string? quote fuel (rest.drop (← escapeLength? rest))
    else string? quote fuel rest

def marks : List (List Char) := [
  ">>>=", "...", "===", "!==", "**=", "<<=", ">>=", ">>>", "&&=", "||=", "??=",
  "=>", "==", "!=", "<=", ">=", "&&", "||", "??", "++", "--", "+=", "-=", "*=", "/=", "%=",
  "&=", "|=", "^=", "<<", ">>", "**", "?.",
  "\x7b", "\x7d", "(", ")", "[", "]", ";", ",", "<", ">", "+", "-", "*", "/", "%", "&", "|", "^",
  "!", "~", "?", ":", "=", ".", "@", "`"].map String.toList

def mark? (cs : List Char) : Option (List Char) :=
  match cs with
  | '?' :: '.' :: d :: _ => if d.isDigit then some ['?'] else marks.find? (·.isPrefixOf cs)
  | _ => marks.find? (·.isPrefixOf cs)

def tokenOf (cs : List Char) : Token × List Char :=
  match cs with
  | [] => (.finish, [])
  | '#' :: rest =>
    match identifierFrom (rest.length + 1) rest [] false with
    | some (_, _, after) => (.privateName, after)
    | none => (.bad, rest)
  | c :: rest =>
    if isIdentifierStart c || c = '\\' then
      match identifierFrom (cs.length + 1) cs [] false with
      | some (name, escaped, after) => (.word (String.ofList name) escaped, after)
      | none => (.bad, rest)
    else if c.isDigit || (c = '.' && (rest.head?.any Char.isDigit)) then
      match number? cs with
      | some after => (.number, after)
      | none => (.bad, rest)
    else if c = '"' || c = '\'' then
      match string? c (rest.length + 1) rest with
      | some after => (.string, after)
      | none => (.bad, rest)
    else
      match mark? cs with
      | some m => (.mark (String.ofList m), cs.drop m.length)
      | none => (.bad, rest)

structure Lexeme where
  token : Token
  here : Cursor
  next : Cursor
  onNewLine : Bool
deriving Repr, Inhabited

def Lexeme.span (l : Lexeme) : Span := ⟨l.here.offset, l.next.offset⟩

def lexemeFrom (c : Cursor) (line : Bool) : Lexeme :=
  let (start, onNewLine) := skipBlanks (c.rest.length + 1) c.rest line
  let size := byteLength c.rest
  let (token, after) := tokenOf start
  ⟨token, ⟨c.offset + (size - byteLength start), start⟩,
    ⟨c.offset + (size - byteLength after), after⟩, onNewLine⟩

end VisibleText.JavaScript
