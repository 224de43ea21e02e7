namespace VisibleText.Discovery

inductive Range where
  | single (c : Char)
  | between (lo hi : Char)
deriving DecidableEq, Repr, Inhabited

namespace Range

def contains (c : Char) : Range → Bool
  | single d => c = d
  | between lo hi => lo ≤ c && c ≤ hi

def parseAll : List Char → List Range
  | a :: '-' :: b :: rest => between a b :: parseAll rest
  | a :: rest => single a :: parseAll rest
  | [] => []

end Range

inductive Token where
  | char (c : Char)
  | anyChar
  | anyOf (ranges : List Range)
  | anyBut (ranges : List Range)
  | anySequence
  | anyComponents
deriving DecidableEq, Repr, Inhabited

def Token.accepts (t : Token) (c : Char) : Bool :=
  match t with
  | .char d => c = d
  | .anyChar => true
  | .anyOf rs => rs.any (Range.contains c)
  | .anyBut rs => !rs.any (Range.contains c)
  | .anySequence => false
  | .anyComponents => false

inductive Fault where
  | wildcards
  | recursion
  | range
deriving DecidableEq, Repr, Inhabited

structure PatternError where
  position : Nat
  fault : Fault
deriving DecidableEq, Repr, Inhabited

namespace PatternError

def message (e : PatternError) : String :=
  "Pattern syntax error near position " ++ toString e.position ++ ": " ++ match e.fault with
    | .wildcards => "wildcards are either regular `*` or recursive `**`"
    | .recursion => "recursive wildcards must form a single path component"
    | .range => "invalid range pattern"

end PatternError

abbrev Pattern := List Token

namespace Pattern

/-- Reads a set from behind its opening bracket: the token and the characters it takes. The first
character of the set may be a closing bracket. -/
def set? (cs : List Char) : Option (Token × Nat) :=
  match cs with
  | '!' :: first :: rest =>
    let more := rest.takeWhile (· != ']')
    if more.length < rest.length then
      some (.anyBut (Range.parseAll (first :: more)), more.length + 3)
    else none
  | '!' :: [] => none
  | first :: rest =>
    let more := rest.takeWhile (· != ']')
    if more.length < rest.length then
      some (.anyOf (Range.parseAll (first :: more)), more.length + 2)
    else none
  | [] => none

def parseFrom (position : Nat) (before : Option Char) (cs : List Char) : Except PatternError Pattern :=
  match cs with
  | [] => .ok []
  | c :: rest => do
    if c = '?' then return .anyChar :: (← parseFrom (position + 1) c rest)
    else if c = '*' then
      let more := rest.takeWhile (· = '*')
      let after := rest.drop more.length
      if more.length = 0 then return .anySequence :: (← parseFrom (position + 1) c rest)
      else if 1 < more.length then throw ⟨position + 2, .wildcards⟩
      else if before.any (· != '/') then throw ⟨position - 1, .recursion⟩
      else
        match after.head? with
        | none => return [.anyComponents]
        | some d =>
          if d = '/' then return .anyComponents :: (← parseFrom (position + 3) d (rest.drop 2))
          else throw ⟨position + 2, .recursion⟩
    else if c = '[' then
      match set? rest with
      | some (t, n) => return t :: (← parseFrom (position + n + 1) ((rest.take n).getLast?) (rest.drop n))
      | none => throw ⟨position, .range⟩
    else return .char c :: (← parseFrom (position + 1) c rest)
termination_by cs.length
decreasing_by all_goals simp only [List.length_cons, List.length_drop]; omega

def parse (text : String) : Except PatternError Pattern := parseFrom 0 none text.toList

def componentTails : List Char → List (List Char)
  | [] => [[]]
  | c :: rest => (c :: rest) :: behindSlashes (c :: rest) ++ [[]]
where
  behindSlashes : List Char → List (List Char)
    | [] => []
    | c :: rest => if c = '/' then rest :: behindSlashes rest else behindSlashes rest

def suffixes : List Char → List (List Char)
  | [] => [[]]
  | c :: cs => (c :: cs) :: suffixes cs

def isMatch : Pattern → List Char → Bool
  | [], cs => cs.isEmpty
  | .anySequence :: ts, cs => (suffixes cs).any (isMatch ts)
  | .anyComponents :: ts, cs => (componentTails cs).any (isMatch ts)
  | t :: ts, c :: cs => t.accepts c && isMatch ts cs
  | _ :: _, [] => false

end Pattern

end VisibleText.Discovery
