import VisibleText.Exclusion.Dictionary
import VisibleText.FileSystem.Basic

namespace VisibleText.Exclusion

structure Unreadable where
  path : Path
  error : FileError
deriving DecidableEq, Repr, Inhabited

def Unreadable.message (u : Unreadable) : String :=
  "Failed to read exclusion dictionary: " ++ u.path.text ++ ": " ++ u.error.message

def Dictionary.appendFiles (e : Engines) (d : Dictionary) (fs : FileSystem) :
    List Path → Except Unreadable Dictionary
  | [] => .ok d
  | p :: rest =>
    match fs.readText p with
    | .ok source => (d.append e source).appendFiles e fs rest
    | .error x => .error ⟨p, x⟩

end VisibleText.Exclusion
