import VisibleText.Blade.Region
import VisibleText.Engines
import VisibleText.JavaScript.Program
import VisibleText.Markup.Parser
import VisibleText.Pattern.Parser

namespace VisibleText

namespace Markup

def isMarkupByte (b : UInt8) : Bool := b == less || b == greater || b == ampersand

-- An ordinary byte stands for each markup byte in the set.
def quiet (set : SpanSet) (bs : Bytes) : Bytes :=
  bs.mapIdx fun i b => if isMarkupByte b && set.overlaps ⟨i, i + 1⟩ then 0x2E else b

/-- The markup of a template. If it is not well formed, markup bytes in template code are taken as text; where no
node starts even then, a byte is an error and reading goes on behind it. -/
def ofTemplate (bs : Bytes) : Node :=
  match parse? false bs with
  | some tree => tree
  | none =>
    let quieted := quiet (Blade.codeOutsideComments bs) bs
    match parse? false quieted with
    | some tree => tree
    | none => (parse? true quieted).getD (.leaf .error 0 bs.length)

end Markup

namespace Engines

def own : Engines where
  markup content := Markup.ofTemplate (utf8 content)
  script? := JavaScript.program?
  pattern? source := (Pattern.parse? source).map Pattern.isMatch

end Engines

end VisibleText
