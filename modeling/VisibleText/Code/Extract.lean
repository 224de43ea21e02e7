import VisibleText.Code.Definition
import VisibleText.Code.Signature
import VisibleText.Hit

namespace VisibleText.Code

def keyLookahead : Nat := 100

def isArrayKey (content : List Char) (l : Literal) : Bool :=
  let rest := dropBytes l.stop content
  let after := trimStart rest
  (['=', '>'].isPrefixOf after && byteLength (rest.takeWhile isBlank) ≤ keyLookahead)
    || ((trimEnd (takeBytes l.start content)).getLast? = some '[' && after.head? = some ']')

def extractRange (content : List Char) (s : Span) : List Hit :=
  let bytes := utf8 content
  let excluded := excludedDefinitions content s
  let masked := mask .php bytes s
  (literals .php bytes s).filterMap fun l =>
    if excluded.overlaps ⟨l.start, l.stop⟩ || isArrayKey content l
        || (categoryBefore? masked (l.start - s.start)).isSome then none
    else Hit.at? content l.body

def extract (content : List Char) : List Hit := extractRange content ⟨0, byteLength content⟩

end VisibleText.Code
