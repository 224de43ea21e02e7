namespace VisibleText

inductive Style where
  | bold
  | green
  | yellow
  | blue
  | cyan
  | boldGreen
  | boldYellow
deriving DecidableEq, Repr

namespace Style

def code : Style → String
  | bold => "1"
  | green => "32"
  | yellow => "33"
  | blue => "34"
  | cyan => "36"
  | boldGreen => "1;32"
  | boldYellow => "1;33"

def paint (s : Style) (color : Bool) (text : String) : String :=
  if color then "\x1b[" ++ s.code ++ "m" ++ text ++ "\x1b[0m" else text

end Style

def padLeft (width : Nat) (text : String) : String :=
  String.ofList (List.replicate (width - text.length) ' ') ++ text

end VisibleText
