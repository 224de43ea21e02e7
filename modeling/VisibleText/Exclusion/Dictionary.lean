import VisibleText.Candidate
import VisibleText.Exclusion.Rule

namespace VisibleText.Exclusion

/-- The lines of a text, without what ends them: a line feed and perhaps a carriage return before
it. Nothing after the last line feed is no line. -/
def lines (cs : List Char) : List (List Char) := go [] cs
where
  go (line : List Char) : List Char → List (List Char)
    | [] => if line.isEmpty then [] else [line.reverse]
    | '\n' :: rest => (match line with
        | '\r' :: line => line.reverse
        | line => line.reverse) :: go [] rest
    | c :: rest => go (c :: line) rest

structure Dictionary where
  rules : List Rule := []
deriving Inhabited

namespace Dictionary

def append (e : Engines) (d : Dictionary) (source : List Char) : Dictionary :=
  ⟨d.rules ++ (lines source).filterMap (Rule.parse? e)⟩

def size (d : Dictionary) : Nat := d.rules.length

def isEmpty (d : Dictionary) : Bool := d.rules.isEmpty

def excludes (d : Dictionary) (cs : List Char) : Bool :=
  d.rules.foldl (fun excluded r => if r.accepts cs then !r.negated else excluded) false

def builtInLines : List String :=
  ["ar", "bg", "bn", "cs", "da", "de", "el", "en", "es", "fa", "fi", "fr", "he", "hi", "hr", "hu",
    "id", "it", "ja", "ko", "ms", "nl", "no", "pl", "pt", "ro", "ru", "sk", "sv", "th", "tr", "uk",
    "vi", "zh", "regex:^[a-z]\x7b2\x7d[-_][A-Z]\x7b2\x7d$"]

def builtIn (e : Engines) : Dictionary := ⟨builtInLines.filterMap fun l => Rule.parse? e l.toList⟩

def accepts (d : Dictionary) (minBytes : Nat) (cs : List Char) : Bool :=
  Candidate.isCandidate cs minBytes && !d.excludes cs

end Dictionary

end VisibleText.Exclusion
