import VisibleText.Engines
import VisibleText.Exclusion.Glob

namespace VisibleText.Exclusion

inductive Matcher where
  | exact (text : List Char)
  | glob (source : List Char) (isMatch : List Char → Bool)
  | regex (source : List Char) (isMatch : List Char → Bool)

namespace Matcher

def accepts : Matcher → List Char → Bool
  | exact t, cs => t == cs
  | glob _ isMatch, cs => isMatch cs
  | regex _ isMatch, cs => isMatch cs

def source : Matcher → List Char
  | exact t => t
  | glob s _ => s
  | regex s _ => s

def parse? (e : Engines) (body : List Char) : Option Matcher :=
  let marker := "regex:".toList
  if marker.isPrefixOf body then
    let source := body.drop marker.length
    (e.pattern? source).map (regex source)
  else if Glob.isGlob body then
    let source := Glob.patternText body
    (e.pattern? source).map (glob source)
  else some (exact body)

end Matcher

structure Rule where
  matcher : Matcher
  negated : Bool

namespace Rule

def accepts (r : Rule) (cs : List Char) : Bool := r.matcher.accepts cs

def parse? (e : Engines) (line : List Char) : Option Rule :=
  let line := trim line
  match line with
  | [] => none
  | '#' :: _ => none
  | '!' :: rest =>
    let body := trim rest
    if body.isEmpty then none else (Matcher.parse? e body).map (⟨·, true⟩)
  | _ => (Matcher.parse? e line).map (⟨·, false⟩)

end Rule

end VisibleText.Exclusion
