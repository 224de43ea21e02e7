import VisibleText.Span
import VisibleText.Text.Utf8

namespace VisibleText.Code

def lineFeed : UInt8 := 0x0A
def space : UInt8 := 0x20
def doubleQuote : UInt8 := 0x22
def singleQuote : UInt8 := 0x27
def backquote : UInt8 := 0x60
def backslash : UInt8 := 0x5C
def hash : UInt8 := 0x23
def slash : UInt8 := 0x2F
def star : UInt8 := 0x2A

inductive Dialect where
  | php
  | js
deriving DecidableEq, Repr, Inhabited

def lineLength : Bytes → Nat
  | [] => 0
  | b :: bs => if b = lineFeed then 1 else lineLength bs + 1

def blockLength (bs : Bytes) : Nat :=
  match indexOf? [star, slash] bs with
  | some i => i + 2
  | none => bs.length

/-- The length of the comment that the input starts with. A comment that is not closed takes all of
the input. -/
def commentLength? (d : Dialect) (bs : Bytes) : Option Nat :=
  if [slash, star].isPrefixOf bs then some (blockLength (bs.drop 2) + 2)
  else if [slash, slash].isPrefixOf bs then some (lineLength (bs.drop 2) + 2)
  else if d = .php && bs.head? = some hash then some (lineLength (bs.drop 1) + 1)
  else none

def closingLength? (quote : UInt8) : Bytes → Option Nat
  | [] => none
  | b :: bs =>
    if b = backslash then
      match bs with
      | [] => none
      | _ :: rest => (closingLength? quote rest).map (· + 2)
    else if b = quote then some 1
    else (closingLength? quote bs).map (· + 1)

def literalLength? : Bytes → Option Nat
  | [] => none
  | quote :: bs => (closingLength? quote bs).map (· + 1)

def isQuote (b : UInt8) : Bool := b == doubleQuote || b == singleQuote

def isQuoteOrBackquote (b : UInt8) : Bool := isQuote b || b == backquote

inductive Lexeme where
  | code (byte : UInt8)
  | comment (bytes : Bytes)
  | literal (bytes : Bytes)
  | unclosed (bytes : Bytes)
deriving DecidableEq, Repr, Inhabited

namespace Lexeme

def bytes : Lexeme → Bytes
  | code b => [b]
  | comment bs => bs
  | literal bs => bs
  | unclosed bs => bs

def length (l : Lexeme) : Nat := l.bytes.length

def masked : Lexeme → Bytes
  | code b => [b]
  | l => l.bytes.map fun b => if b = lineFeed then lineFeed else space

end Lexeme

def lexemes (d : Dialect) (quotes : UInt8 → Bool) (bs : Bytes) : List Lexeme :=
  match bs with
  | [] => []
  | b :: rest =>
    match commentLength? d (b :: rest) with
    | some n => .comment ((b :: rest).take n) :: lexemes d quotes (rest.drop (n - 1))
    | none =>
      if quotes b then
        match closingLength? b rest with
        | some n => .literal (b :: rest.take n) :: lexemes d quotes (rest.drop n)
        | none => [.unclosed (b :: rest)]
      else .code b :: lexemes d quotes rest
termination_by bs.length
decreasing_by all_goals simp only [List.length_cons, List.length_drop]; omega

def scope (bs : Bytes) (s : Span) : Bytes := (bs.take s.stop).drop s.start

structure Literal where
  quote : UInt8
  body : Span
deriving DecidableEq, Repr, Inhabited

namespace Literal

def start (l : Literal) : Nat := l.body.start - 1

def stop (l : Literal) : Nat := l.body.stop + 1

def ofLexemes (offset : Nat) : List Lexeme → List Literal
  | [] => []
  | l :: ls =>
    let rest := ofLexemes (offset + l.length) ls
    match l with
    | .literal (quote :: body) => ⟨quote, ⟨offset + 1, offset + body.length⟩⟩ :: rest
    | _ => rest

end Literal

def literals (d : Dialect) (bs : Bytes) (s : Span) : List Literal :=
  Literal.ofLexemes s.start (lexemes d isQuote (scope bs s))

def mask (d : Dialect) (bs : Bytes) (s : Span) : Bytes :=
  (lexemes d isQuote (scope bs s)).flatMap Lexeme.masked

end VisibleText.Code
