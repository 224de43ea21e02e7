import Std.Data.HashMap
import VisibleText.LineIndex

namespace VisibleText

structure Occurrence where
  file : String
  positions : List Position
deriving DecidableEq, Repr, Inhabited

structure Record where
  text : String
  occurrences : List Occurrence
deriving DecidableEq, Repr, Inhabited

namespace Occurrence

def push (p : Position) (o : Occurrence) : Occurrence := { o with positions := o.positions ++ [p] }

/-- The slot of the occurrence in a file. Texts come file by file, so the last one is tried first. -/
def slot? (file : String) (os : List Occurrence) : Option Nat :=
  if os.getLast?.any (·.file == file) then some (os.length - 1)
  else os.findIdx? (·.file == file)

end Occurrence

namespace Record

def add (r : Record) (file : String) (p : Position) : Record :=
  match Occurrence.slot? file r.occurrences with
  | some i => { r with occurrences := r.occurrences.modify i (·.push p) }
  | none => { r with occurrences := r.occurrences ++ [⟨file, [p]⟩] }

def total (r : Record) : Nat := r.occurrences.foldl (fun n o => n + o.positions.length) 0

def totalOf (records : List Record) : Nat := records.foldl (fun n r => n + r.total) 0

end Record

structure FileTexts where
  file : String
  texts : List (String × Position)
deriving DecidableEq, Repr, Inhabited

structure Catalog where
  records : List Record
  index : Std.HashMap String Nat
deriving Repr, Inhabited

namespace Catalog

def empty : Catalog := ⟨[], ∅⟩

def size (c : Catalog) : Nat := c.records.length

def isEmpty (c : Catalog) : Bool := c.records.isEmpty

def slot (c : Catalog) (text : String) : Nat × Catalog :=
  match c.index[text]? with
  | some i => (i, c)
  | none => (c.size, ⟨c.records ++ [⟨text, []⟩], c.index.insert text c.size⟩)

def add (c : Catalog) (file text : String) (p : Position) : Catalog :=
  let (i, c) := c.slot text
  { c with records := c.records.modify i (·.add file p) }

def addFile (c : Catalog) (f : FileTexts) : Catalog :=
  f.texts.foldl (fun c (text, p) => c.add f.file text p) c

def ofFiles (files : List FileTexts) : Catalog := files.foldl addFile empty

end Catalog

def sortByText (records : List Record) : List Record :=
  records.mergeSort fun a b => a.text ≤ b.text

end VisibleText
