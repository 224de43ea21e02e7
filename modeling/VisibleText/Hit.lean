import VisibleText.Text.Blank
import VisibleText.Text.Utf8
import VisibleText.Span

namespace VisibleText

structure Hit where
  text : List Char
  offset : Nat
deriving DecidableEq, Repr, Inhabited

namespace Hit

def length (h : Hit) : Nat := h.text.length

def stop (h : Hit) : Nat := h.offset + byteLength h.text

def span (h : Hit) : Span := ⟨h.offset, h.stop⟩

def ofRaw? (raw : List Char) (offset : Nat) : Option Hit :=
  let lead := raw.takeWhile isBlank
  let text := trim raw
  if text.isEmpty then none else some ⟨text, offset + byteLength lead⟩

def at? (content : List Char) (s : Span) : Option Hit :=
  ofRaw? (sliceBytes content s.start s.stop) s.start

end Hit

end VisibleText
