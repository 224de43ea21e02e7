import Mathlib.Data.List.Basic
import Mathlib.Order.Lattice
import VisibleText.Proofs.Lines
import VisibleText.Record.Report

namespace VisibleText

namespace LineIndex

end LineIndex

namespace Report

section Lines

variable (color : Bool) (width : ℕ) (p : Position)

end Lines

def numbers (p : Position) (window : ℕ) : List ℕ := p.line :: List.range' (firstLine p window) p.context.length

end Report

end VisibleText
