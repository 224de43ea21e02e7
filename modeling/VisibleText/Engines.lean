import VisibleText.JavaScript.Tree
import VisibleText.Markup.Node

namespace VisibleText

/-- The readers of other languages that a search is built on. What is proved about a search holds whatever they answer. -/
structure Engines where
  markup : List Char → Markup.Node
  script? : List Char → Option JavaScript.Tree
  pattern? : List Char → Option (List Char → Bool)

end VisibleText
