import VisibleText.Discovery.Pattern
import VisibleText.FileSystem.Basic
import VisibleText.Record.Report
import VisibleText.Source

namespace VisibleText.Discovery

structure Ignores where
  literals : List Path
  patterns : List Pattern
deriving Repr, Inhabited

namespace Ignores

def isPattern (entry : String) : Bool := entry.toList.any fun c => c = '*' || c = '?' || c = '['

def trimSlashes (entry : String) : String :=
  let front := entry.toList.dropWhile (· = '/')
  String.ofList (front.reverse.dropWhile (· = '/')).reverse

def parse (entries : List String) : Ignores × List (String × PatternError) :=
  let (patterns, literals) := entries.partition isPattern
  let read := patterns.map fun e => (e, Pattern.parse e)
  (⟨literals.map fun e => ⟨trimSlashes e⟩, read.filterMap fun (_, r) => r.toOption⟩,
    read.filterMap fun
      | (e, .error err) => some (e, err)
      | _ => none)

def relativeText (names : List String) : List Char := ("/".intercalate names).toList

def literalHides (entry : Path) (names : List String) : Bool :=
  entry.components.isPrefixOf (names.map Path.Component.name) || names.contains entry.text

def hides (i : Ignores) (names : List String) : Bool :=
  i.literals.any (fun e => literalHides e names) || i.patterns.any fun p => p.isMatch (relativeText names)

end Ignores

def reachable (hidden : List String → Bool) (names : List String) : Entry → List (List String)
  | .file _ => [names]
  | .link _ => []
  | .directory entries => below hidden names entries
where
  below (hidden : List String → Bool) (names : List String) :
      List (String × Entry) → List (List String)
    | [] => []
    | (name, e) :: rest =>
      let here := names ++ [name]
      (if hidden here then [] else reachable hidden here e) ++ below hidden names rest

structure Found where
  files : List SourceFile
  skipped : Nat
  messages : String
deriving Repr, Inhabited

/-- The entry that the search starts from. A link is followed to a directory, and is no file. -/
def start? (fs : FileSystem) (root : Path) : Except FileError (Option Entry) := do
  let place ← fs.follow false root
  match fs.root.get? place with
  | none => throw .notFound
  | some (.link _) =>
    match ← fs.stat root with
    | .directory entries => return some (.directory entries)
    | _ => return none
  | some e => return some e

def namesLe (a b : List String) : Bool := !(b < a : Bool)

def sources (root : Path) (pattern : Pattern) (found : List (List String)) : List SourceFile :=
  (found.mergeSort namesLe).filterMap fun names =>
    if pattern.isMatch (Ignores.relativeText names) then
      let path := names.foldl (fun p n => p.join ⟨n⟩) root
      (FileKind.ofPath? path).map (⟨path, ·⟩)
    else none

def scan (fs : FileSystem) (color verbose : Bool) (root : Path) (pattern : String)
    (ignores : List String) : Except PatternError Found := do
  let pattern ← Pattern.parse pattern
  let (ignores, refused) := Ignores.parse ignores
  let warn := fun text => if verbose then Report.warning color ++ text ++ "\n" else ""
  let refusals := String.join (refused.map fun (entry, err) =>
    warn ("Invalid ignore pattern '" ++ entry ++ "': " ++ err.message))
  match start? fs root with
  | .error e =>
    return ⟨[], 1, refusals ++ warn ("Cannot access path: IO error for operation on " ++ root.text
      ++ ": " ++ e.message)⟩
  | .ok none => return ⟨[], 0, refusals⟩
  | .ok (some e) => return ⟨sources root pattern (reachable ignores.hides [] e), 0, refusals⟩

end VisibleText.Discovery
