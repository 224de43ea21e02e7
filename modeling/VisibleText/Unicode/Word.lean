import VisibleText.Unicode.Category
import VisibleText.Unicode.Property

namespace VisibleText.Unicode

def wordSet : CharSet :=
  .ofRuns ((property "Alphabetic").runs ++ (property "Join_Control").runs
    ++ (categories ["Mc", "Me", "Mn", "Nd", "Pc"]).runs)

def isWord (c : Char) : Bool := wordSet.contains c

def atWordBoundary (before after : Option Char) : Bool := before.any isWord != after.any isWord

end VisibleText.Unicode
