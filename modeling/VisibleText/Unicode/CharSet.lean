namespace VisibleText

structure CharSet where
  runs : List (Nat × Nat)
deriving DecidableEq, Repr, Inhabited

namespace CharSet

def lastCodePoint : Nat := 0x10FFFF

def empty : CharSet := ⟨[]⟩

def all : CharSet := ⟨[(0, lastCodePoint)]⟩

def containsCode (n : Nat) : List (Nat × Nat) → Bool
  | [] => false
  | (lo, hi) :: rest => if n < lo then false else n ≤ hi || containsCode n rest

def contains (s : CharSet) (c : Char) : Bool := containsCode c.toNat s.runs

def joinRun (lo hi : Nat) : List (Nat × Nat) → List (Nat × Nat)
  | [] => [(lo, hi)]
  | (lo', hi') :: rest =>
    if lo' ≤ hi + 1 then joinRun lo (max hi hi') rest else (lo, hi) :: (lo', hi') :: rest

def ofRuns (runs : List (Nat × Nat)) : CharSet :=
  let sorted := (runs.filter fun r => r.1 ≤ r.2).mergeSort fun a b => a.1 ≤ b.1
  ⟨sorted.foldr (fun r rest => joinRun r.1 r.2 rest) []⟩

def ofRange (lo hi : Char) : CharSet := ofRuns [(lo.toNat, hi.toNat)]

def singleton (c : Char) : CharSet := ⟨[(c.toNat, c.toNat)]⟩

def ofChars (cs : List Char) : CharSet := ofRuns (cs.map fun c => (c.toNat, c.toNat))

def union (a b : CharSet) : CharSet := ofRuns (a.runs ++ b.runs)

def gapsFrom (next : Nat) : List (Nat × Nat) → List (Nat × Nat)
  | [] => if next ≤ lastCodePoint then [(next, lastCodePoint)] else []
  | (lo, hi) :: rest =>
    if next < lo then (next, lo - 1) :: gapsFrom (hi + 1) rest else gapsFrom (hi + 1) rest

def compl (s : CharSet) : CharSet := ⟨gapsFrom 0 s.runs⟩

def inter (a b : CharSet) : CharSet := (a.compl.union b.compl).compl

def diff (a b : CharSet) : CharSet := a.inter b.compl

def symmDiff (a b : CharSet) : CharSet := (a.diff b).union (b.diff a)

def isEmpty (s : CharSet) : Bool := s.runs.isEmpty

def isAscii (s : CharSet) : Bool := s.runs.all fun r => r.2 < 0x80

def digit? (c : Char) : Option Nat :=
  if '0' ≤ c ∧ c ≤ '9' then some (c.toNat - '0'.toNat)
  else if 'a' ≤ c ∧ c ≤ 'z' then some (c.toNat - 'a'.toNat + 10)
  else none

def numbers (s : String) : List Nat :=
  let step := fun (c : Char) (st : List Char × List Nat) =>
    match digit? c with
    | some _ => (c :: st.1, st.2)
    | none => ([], flush st)
  flush (s.toList.foldr step ([], []))
where
  flush (st : List Char × List Nat) : List Nat :=
    if st.1.isEmpty then st.2
    else st.1.foldl (fun n c => 36 * n + (digit? c).getD 0) 0 :: st.2

/-- Runs from alternating gaps and lengths: each run starts `gap` past the end of the one before
it and goes on for `more` code points after its first. -/
def runsOfGaps (next : Nat) : List Nat → List (Nat × Nat)
  | gap :: more :: rest => (next + gap, next + gap + more) :: runsOfGaps (next + gap + more + 1) rest
  | _ => []

def ofGaps (s : String) : CharSet := ⟨runsOfGaps 0 (numbers s)⟩

end CharSet

end VisibleText
