import VisibleText.Code.Lexeme

namespace VisibleText.Code

def closer? (b : UInt8) : Option UInt8 :=
  if b = 0x28 then some 0x29
  else if b = 0x5B then some 0x5D
  else if b = 0x7B then some 0x7D
  else none

/-- How many bytes stand before the closing delimiter when `depth` + 1 are open. An unclosed literal
hides all closers after it. -/
def closerOffset? (opener closer : UInt8) (depth : Nat) : List Lexeme → Option Nat
  | [] => none
  | .code b :: ls =>
    if b = opener then (closerOffset? opener closer (depth + 1) ls).map (· + 1)
    else if b = closer then
      match depth with
      | 0 => some 0
      | depth + 1 => (closerOffset? opener closer depth ls).map (· + 1)
    else (closerOffset? opener closer depth ls).map (· + 1)
  | .unclosed _ :: _ => none
  | l :: ls => (closerOffset? opener closer depth ls).map (· + l.length)

def partnerAfter? (d : Dialect) (opener : UInt8) (rest : Bytes) : Option Nat := do
  let closer ← closer? opener
  closerOffset? opener closer 0 (lexemes d isQuoteOrBackquote rest)

def partner? (d : Dialect) (bs : Bytes) (offset : Nat) : Option Nat :=
  match bs.drop offset with
  | [] => none
  | opener :: rest => (partnerAfter? d opener rest).map (· + (offset + 1))

end VisibleText.Code
