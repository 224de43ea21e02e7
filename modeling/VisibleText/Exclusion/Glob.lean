import VisibleText.Pattern.Parser

namespace VisibleText.Glob

def isGlob (cs : List Char) : Bool :=
  cs.contains '*' || ((cs.dropWhile (· != '[')).contains ']')

def escaped (c : Char) : List Char := if Pattern.isMeta c then ['\\', c] else [c]

def classChar (leading : Bool) (c : Char) : List Char :=
  if c = '\\' || c = '[' || c = '&' || c = '~' || (c = '^' && !leading) then ['\\', c] else [c]

def classChars : List Char → List Char
  | [] => []
  | c :: cs => classChar true c ++ cs.flatMap (classChar false)

def bodyText (cs : List Char) : List Char :=
  match cs with
  | [] => []
  | '*' :: rest => ['.', '*'] ++ bodyText rest
  | '[' :: rest =>
    if rest.contains ']' then
      let inner := rest.takeWhile (· != ']')
      '[' :: classChars inner ++ ']' :: bodyText (rest.drop (inner.length + 1))
    else ['\\', '['] ++ bodyText rest
  | c :: rest => escaped c ++ bodyText rest
termination_by cs.length
decreasing_by all_goals simp only [List.length_cons, List.length_drop]; omega

def patternText (cs : List Char) : List Char := '^' :: bodyText cs ++ ['$']

def compile? (cs : List Char) : Option Pattern := Pattern.parse? (patternText cs)

end VisibleText.Glob
