namespace VisibleText

abbrev Bytes := List UInt8

def byteLength : List Char → Nat
  | [] => 0
  | c :: cs => c.utf8Size + byteLength cs

def utf8 (cs : List Char) : Bytes := cs.flatMap String.utf8EncodeChar

def dropBytes : Nat → List Char → List Char
  | 0, cs => cs
  | _ + 1, [] => []
  | n + 1, c :: cs => dropBytes (n + 1 - c.utf8Size) cs

def takeBytes : Nat → List Char → List Char
  | _, [] => []
  | n, c :: cs => if c.utf8Size ≤ n then c :: takeBytes (n - c.utf8Size) cs else []

def sliceBytes (cs : List Char) (start stop : Nat) : List Char :=
  takeBytes (stop - start) (dropBytes start cs)

def IsBoundary (cs : List Char) (n : Nat) : Prop := ∃ k, byteLength (cs.take k) = n

def floorBoundary (cs : List Char) (n : Nat) : Nat := byteLength (takeBytes n cs)

def slice? (cs : List Char) (start stop : Nat) : Option (List Char) :=
  if start ≤ stop ∧ floorBoundary cs start = start ∧ floorBoundary cs stop = stop then
    some (sliceBytes cs start stop)
  else none

def isContinuation (b : UInt8) : Bool := 0x80 ≤ b && b < 0xC0

/-- How many continuation bytes follow a leading byte, and the range of the first of them; `none` if
no character starts with the byte. -/
def leading? (b : UInt8) : Option (Nat × UInt8 × UInt8) :=
  if b < 0x80 then some (0, 0x80, 0xBF)
  else if b < 0xC2 then none
  else if b < 0xE0 then some (1, 0x80, 0xBF)
  else if b = 0xE0 then some (2, 0xA0, 0xBF)
  else if b = 0xED then some (2, 0x80, 0x9F)
  else if b < 0xF0 then some (2, 0x80, 0xBF)
  else if b = 0xF0 then some (3, 0x90, 0xBF)
  else if b < 0xF4 then some (3, 0x80, 0xBF)
  else if b = 0xF4 then some (3, 0x80, 0x8F)
  else none

def continued (count : Nat) (lo hi : UInt8) (bs : Bytes) : Nat :=
  match count, bs with
  | count + 1, b :: bs => if lo ≤ b && b ≤ hi then continued count 0x80 0xBF bs + 1 else 0
  | _, _ => 0

def decodeLossy (bs : Bytes) : List Char :=
  match bs with
  | [] => []
  | b :: rest =>
    match leading? b with
    | none => '�' :: decodeLossy rest
    | some (count, lo, hi) =>
      let n := continued count lo hi rest
      let mark := if b < 0x80 then 0x80 else if b < 0xE0 then 0x20 else if b < 0xF0 then 0x10 else 0x08
      let code := (rest.take n).foldl (fun v c => 64 * v + c.toNat % 64) (b.toNat % mark)
      (if n = count then Char.ofNat code else '�') :: decodeLossy (rest.drop n)
termination_by bs.length
decreasing_by all_goals simp only [List.length_cons, List.length_drop]; omega

def decode? (bs : Bytes) : Option String := String.fromUTF8? ⟨bs.toArray⟩

def decode (bs : Bytes) : String :=
  match decode? bs with
  | some s => s
  | none => String.ofList (decodeLossy bs)

def indexOf? (needle : Bytes) : Bytes → Option Nat
  | [] => if needle.isEmpty then some 0 else none
  | b :: bs =>
    if needle.isPrefixOf (b :: bs) then some 0 else (indexOf? needle bs).map (· + 1)

end VisibleText
