namespace VisibleText

structure Path where
  text : String
deriving DecidableEq, Repr, Inhabited

namespace Path

inductive Component where
  | root
  | current
  | parent
  | name (text : String)
deriving DecidableEq, Repr, Inhabited

/-- The pieces between slashes, each with the number of characters up to its end; `read` characters
have been read and `piece` holds those of the current piece, last one first. -/
def piecesFrom (read : Nat) (piece : List Char) : List Char → List (List Char × Nat)
  | [] => [(piece.reverse, read)]
  | c :: cs =>
    if c = '/' then (piece.reverse, read) :: piecesFrom (read + 1) [] cs
    else piecesFrom (read + 1) (c :: piece) cs

def component? (piece : List Char) : Option Component :=
  if piece = [] ∨ piece = ['.'] then none
  else if piece = ['.', '.'] then some .parent
  else some (.name (String.ofList piece))

def located (p : Path) : List (Component × Nat) :=
  match piecesFrom 0 [] p.text.toList with
  | [] => []
  | (first, n) :: rest =>
    let behind := rest.filterMap fun (piece, n) => (component? piece).map (·, n)
    if first = ['.'] then (.current, n) :: behind
    else if first = [] then
      if rest.isEmpty then [] else (.root, 1) :: behind
    else ((component? first).map (·, n)).toList ++ behind

def components (p : Path) : List Component := p.located.map (·.1)

def isAbsolute (p : Path) : Bool := p.components.head? = some .root

def fileName? (p : Path) : Option String :=
  match p.components.getLast? with
  | some (.name n) => some n
  | _ => none

def parent? (p : Path) : Option Path :=
  match p.located.reverse with
  | [] => none
  | (.root, _) :: _ => none
  | _ :: [] => some ⟨""⟩
  | _ :: (_, n) :: _ => some ⟨String.ofList (p.text.toList.take n)⟩

def join (p q : Path) : Path :=
  if q.isAbsolute || p.text.isEmpty then q
  else if p.text.toList.getLast? = some '/' then ⟨p.text ++ q.text⟩
  else ⟨p.text ++ "/" ++ q.text⟩

def withFileName (p : Path) (name : String) : Path :=
  match p.fileName?, p.parent? with
  | some _, some base => base.join ⟨name⟩
  | _, _ => p.join ⟨name⟩

def splitName (name : String) : String × Option String :=
  let cs := name.toList.reverse
  match cs.dropWhile (· != '.') with
  | [] => (name, none)
  | [_] => (name, none)
  | _ :: stem => (String.ofList stem.reverse, some (String.ofList (cs.takeWhile (· != '.')).reverse))

def extension? (p : Path) : Option String := p.fileName?.bind fun n => (splitName n).2

def stem? (p : Path) : Option String := p.fileName?.map fun n => (splitName n).1

end Path

end VisibleText
