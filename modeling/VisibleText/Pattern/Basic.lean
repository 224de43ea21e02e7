import VisibleText.Unicode.Word

namespace VisibleText

inductive Look where
  | textStart
  | textEnd
  | lineStart (crlf : Bool)
  | lineEnd (crlf : Bool)
  | wordBoundary (ascii : Bool)
  | notWordBoundary (ascii : Bool)
  | wordStart (ascii : Bool)
  | wordEnd (ascii : Bool)
  | wordStartHalf (ascii : Bool)
  | wordEndHalf (ascii : Bool)
deriving DecidableEq, Repr

inductive Pattern where
  | empty
  | chars (set : CharSet)
  | look (condition : Look)
  | seq (first second : Pattern)
  | alt (left right : Pattern)
  | repeated (body : Pattern) (least : Nat) (most : Option Nat)
deriving Repr, Inhabited

namespace Look

def isAsciiWord (c : Char) : Bool := c.isAlphanum || c == '_'

def word (ascii : Bool) (c : Option Char) : Bool :=
  c.any (if ascii then isAsciiWord else Unicode.isWord)

def holds : Look → Option Char → Option Char → Bool
  | textStart, before, _ => before.isNone
  | textEnd, _, after => after.isNone
  | lineStart false, before, _ => before.isNone || before == some '\n'
  | lineStart true, before, after =>
    before.isNone || before == some '\n' || (before == some '\r' && after != some '\n')
  | lineEnd false, _, after => after.isNone || after == some '\n'
  | lineEnd true, before, after =>
    after.isNone || after == some '\r' || (after == some '\n' && before != some '\r')
  | wordBoundary a, before, after => word a before != word a after
  | notWordBoundary a, before, after => word a before == word a after
  | wordStart a, before, after => !word a before && word a after
  | wordEnd a, before, after => word a before && !word a after
  | wordStartHalf a, before, _ => !word a before
  | wordEndHalf a, _, after => !word a after

end Look

abbrev Marks := List Bool

namespace Marks

def union (a b : Marks) : Marks := List.zipWith (· || ·) a b

def close (f : Marks → Marks) : Nat → Marks → Marks
  | 0, m => m
  | n + 1, m =>
    let next := union m (f m)
    if next == m then m else close f n next

end Marks

namespace Pattern

inductive Matches (text : List Char) : Pattern → Nat → Nat → Prop where
  | empty (i) : i ≤ text.length → Matches text .empty i i
  | chars {s i c} : text[i]? = some c → s.contains c = true → Matches text (.chars s) i (i + 1)
  | look {l i} : i ≤ text.length →
      l.holds (if i = 0 then none else text[i - 1]?) text[i]? = true → Matches text (.look l) i i
  | seq {p q i j k} : Matches text p i j → Matches text q j k → Matches text (.seq p q) i k
  | altLeft {p q i j} : Matches text p i j → Matches text (.alt p q) i j
  | altRight {p q i j} : Matches text q i j → Matches text (.alt p q) i j
  | done {p most i} : i ≤ text.length → Matches text (.repeated p 0 most) i i
  | more {p least most i j k} : (∀ n, most = some n → 0 < n) → Matches text p i j →
      Matches text (.repeated p (least - 1) (most.map (· - 1))) j k →
      Matches text (.repeated p least most) i k

def times (f : Marks → Marks) : Nat → Marks → Marks
  | 0, m => m
  | n + 1, m => if m.contains true then times f n (f m) else m

def surroundings (text : List Char) : List (Option Char × Option Char) :=
  List.zip (none :: text.map some) (text.map some ++ [none])

def reach (text : List Char) : Pattern → Marks → Marks
  | empty, m => m
  | chars s, m => false :: List.zipWith (fun c marked => marked && s.contains c) text m
  | look l, m => List.zipWith (fun (b, a) marked => marked && l.holds b a) (surroundings text) m
  | seq p q, m => reach text q (reach text p m)
  | alt p q, m => .union (reach text p m) (reach text q m)
  | repeated p least most, m =>
    let start := times (reach text p) least m
    match most with
    | none => .close (reach text p) (text.length + 1) start
    | some n => .close (reach text p) (min (n - least) (text.length + 1)) start

def isMatch (p : Pattern) (text : List Char) : Bool :=
  (p.reach text (List.replicate (text.length + 1) true)).contains true

def seqAll : List Pattern → Pattern
  | [] => empty
  | [p] => p
  | p :: ps => seq p (seqAll ps)

def altAll : List Pattern → Pattern
  | [] => empty
  | [p] => p
  | p :: ps => alt p (altAll ps)

def weight : Pattern → Nat
  | empty => 0
  | chars s => (s.runs.map fun r => if r.2 < 0x80 then 32 else 64).sum
  | look _ => 32
  | seq p q => p.weight + q.weight
  | alt p q => p.weight + q.weight + 32
  | repeated p least most => (p.weight + 32) * max 1 (most.getD (max 1 least))

end Pattern

end VisibleText
