import VisibleText.Path
import VisibleText.Text.Utf8

/-!
Trees of files, directories and symbolic links, and how a path is followed through one. Left out are
hard links (two names never share a file), devices and pipes, permissions other than a file whose
reading fails, and names that are not UTF-8.
-/
namespace VisibleText

inductive FileError where
  | notFound
  | exists
  | notDirectory
  | isDirectory
  | tooManyLinks
  | notText
  | system (text : String)
deriving DecidableEq, Repr, Inhabited

namespace FileError

def message : FileError → String
  | notFound => "No such file or directory (os error 2)"
  | «exists» => "File exists (os error 17)"
  | notDirectory => "Not a directory (os error 20)"
  | isDirectory => "Is a directory (os error 21)"
  | tooManyLinks => "Too many levels of symbolic links (os error 40)"
  | notText => "stream did not contain valid UTF-8"
  | system text => text

end FileError

inductive Entry where
  | file (content : Except FileError Bytes)
  | link (target : String)
  | directory (entries : List (String × Entry))
deriving Repr, Inhabited

namespace Entry

def isDirectory : Entry → Bool
  | directory _ => true
  | _ => false

def child? (name : String) : Entry → Option Entry
  | directory entries => entries.lookup name
  | _ => none

def get? (e : Entry) : List String → Option Entry
  | [] => some e
  | name :: rest =>
    match e.child? name with
    | some c => c.get? rest
    | none => none

def setEntry (name : String) (e : Entry) : List (String × Entry) → List (String × Entry)
  | [] => [(name, e)]
  | (n, old) :: rest => if n = name then (n, e) :: rest else (n, old) :: setEntry name e rest

def set (e new : Entry) : List String → Entry
  | [] => new
  | name :: rest =>
    match e with
    | directory entries =>
      match entries.lookup name, rest with
      | some c, _ => directory (setEntry name (c.set new rest) entries)
      | none, [] => directory (setEntry name new entries)
      | none, _ => e
    | _ => e

def files (at_ : List String) : Entry → List (List String × Bytes)
  | file (.ok content) => [(at_, content)]
  | file (.error _) => []
  | link _ => []
  | directory entries => filesOf at_ entries
where
  filesOf (at_ : List String) : List (String × Entry) → List (List String × Bytes)
    | [] => []
    | (name, e) :: rest => e.files (at_ ++ [name]) ++ filesOf at_ rest

end Entry

structure FileSystem where
  root : Entry
  workingDir : List String
deriving Repr, Inhabited

namespace FileSystem

/-- The names that a path is followed by. A slash at the end asks for a directory, as a dot does. -/
def steps (p : Path) : List String :=
  let pieces := (Path.piecesFrom 0 [] p.text.toList).map fun piece => String.ofList piece.1
  let names := pieces.filter fun s => !s.isEmpty
  if pieces.getLast? = some "" && !names.isEmpty then names ++ ["."] else names

def maxLinks : Nat := 40

/-- Follows names from a directory. The last name may be missing in its directory; a link in the
last place is followed only if `last` says so, and at most `links` are followed. -/
def walk (fs : FileSystem) (last : Bool) (links : Nat) (here names : List String) :
    Except FileError (List String) :=
  match names with
  | [] => .ok here
  | name :: rest =>
    match fs.root.get? here with
    | some (.directory entries) =>
      if name = "." then fs.walk last links here rest
      else if name = ".." then fs.walk last links here.dropLast rest
      else
        match entries.lookup name with
        | none => if rest.isEmpty then .ok (here ++ [name]) else .error .notFound
        | some (.link target) =>
          if rest.isEmpty && !last then .ok (here ++ [name])
          else
            match links with
            | 0 => .error .tooManyLinks
            | links + 1 =>
              let start := if (Path.mk target).isAbsolute then [] else here
              fs.walk last links start (steps ⟨target⟩ ++ rest)
        | some _ => fs.walk last links (here ++ [name]) rest
    | some _ => .error .notDirectory
    | none => .error .notFound
termination_by (links, names.length)

def follow (fs : FileSystem) (last : Bool) (p : Path) : Except FileError (List String) :=
  if p.text.isEmpty then .error .notFound
  else fs.walk last maxLinks (if p.isAbsolute then [] else fs.workingDir) (steps p)

def stat (fs : FileSystem) (p : Path) : Except FileError Entry := do
  match fs.root.get? (← fs.follow true p) with
  | some e => return e
  | none => throw .notFound

def doesExist (fs : FileSystem) (p : Path) : Bool :=
  match fs.stat p with
  | .ok _ => true
  | .error _ => false

def isDirectory (fs : FileSystem) (p : Path) : Bool :=
  match fs.stat p with
  | .ok e => e.isDirectory
  | .error _ => false

def read (fs : FileSystem) (p : Path) : Except FileError Bytes := do
  match ← fs.stat p with
  | .file content => content
  | _ => throw .isDirectory

def readText (fs : FileSystem) (p : Path) : Except FileError (List Char) := do
  match decode? (← fs.read p) with
  | some s => return s.toList
  | none => throw .notText

def absolute (place : List String) : Path := ⟨"/" ++ "/".intercalate place⟩

def canonical (fs : FileSystem) (p : Path) : Except FileError Path := do
  let place ← fs.follow true p
  match fs.root.get? place with
  | some _ => return absolute place
  | none => throw .notFound

end FileSystem

end VisibleText
