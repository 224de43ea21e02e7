namespace VisibleText

structure Span where
  start : Nat
  stop : Nat
deriving DecidableEq, Repr, Inhabited

namespace Span

def isEmpty (s : Span) : Bool := s.stop ≤ s.start

def Contains (s : Span) (n : Nat) : Prop := s.start ≤ n ∧ n < s.stop

def shift (n : Nat) (s : Span) : Span := ⟨s.start + n, s.stop + n⟩

def le (a b : Span) : Bool := a.start < b.start || (a.start == b.start && a.stop ≤ b.stop)

end Span

structure SpanSet where
  spans : List Span
deriving DecidableEq, Repr, Inhabited

namespace SpanSet

def joinAll : List Span → List Span
  | [] => []
  | s :: rest => go s rest
where
  go (current : Span) : List Span → List Span
    | [] => [current]
    | s :: rest =>
      if s.start ≤ current.stop then go ⟨current.start, max current.stop s.stop⟩ rest
      else current :: go s rest

def ofSpans (spans : List Span) : SpanSet :=
  ⟨joinAll ((spans.filter fun s => !s.isEmpty).mergeSort Span.le)⟩

def size (s : SpanSet) : Nat := s.spans.length

def isEmpty (s : SpanSet) : Bool := s.spans.isEmpty

def Covers (s : SpanSet) (n : Nat) : Prop := ∃ span ∈ s.spans, span.Contains n

/-- True when the span shares an offset with the set. Only the first span of the set that ends past
the start of `span` is looked at. -/
def overlaps (s : SpanSet) (span : Span) : Bool :=
  if span.isEmpty then false
  else
    match s.spans.find? fun r => span.start < r.stop with
    | some r => r.start < span.stop
    | none => false

end SpanSet

end VisibleText
