import VisibleText.Unicode.Category
import VisibleText.Unicode.Property

namespace VisibleText.Width

def wideSet : CharSet := .ofGaps "3cw 2n 3i2 1 d 1 5a 3 3 0 2 0 eh 1 l 1 q 7 g b 17 0 a 5 3 0 d 0 8 1 h 1 5 1 8 0 5 0 l 0 7 1
    1 0 4 0 2 0 7 0 4 1 s 0 z 0 1 0 4 2 1 0 1p 2 o 0 e 0 nv 1 1f 0 4 0 mi p 1 2g c 5x q 26 2 2d
    2 2u 5 16 1 2l 1 2d 9 1b 1 13 8 mkc 3 1i wp s hv 8mb 6l8 e7 ls 9 m y 1 i 1 3 45 2n 3j 6 m49
    4 b 1 e 4qf 8 yd 15 9 6w7 3 1 6 1 1 1 82 f 0 t 2 2 0 e 3 8 az 6bo 2e 9 m 5n1 0 5m 0 5a 0 2 9
    2t 2 d 17 4 8 7 1 e 5 4a w c 8 1 1x 1 l c 16 4 4 c g 3 0 3 1y 1 0 1 56 2 1q d 3 1 n i 0 q 1
    d 0 2e 2c 1c 1x 6 0 3 2 2 2 4 3 b 1 7 8 6b b 4 0 7v 1a 1 9 1 54 34 c 3 9 5 1j 7 e 2 a 6 8 zr
    1ekd 2 1ekd"

def ignorable : CharSet := Unicode.property "Default_Ignorable_Code_Point"

def extending : CharSet := Unicode.property "Grapheme_Extend"

def emoji : CharSet := Unicode.property "Emoji"

def emojiPresentation : CharSet := Unicode.property "Emoji_Presentation"

def modifierBase : CharSet := Unicode.property "Emoji_Modifier_Base"

def isHangulTail (n : Nat) : Bool :=
  (0x1160 ≤ n && n ≤ 0x11FF) || (0xD7B0 ≤ n && n ≤ 0xD7C6) || (0xD7CB ≤ n && n ≤ 0xD7FB)

def isLeadingSign (n : Nat) : Bool :=
  [0x605, 0x70F, 0x890, 0x891, 0x8E2, 0xD4E, 0xA8FA, 0x111C2, 0x111C3, 0x113D1, 0x1193F, 0x11941,
    0x11A3A, 0x11D46, 0x11F02].contains n || (0x11A84 ≤ n && n ≤ 0x11A89)

def isZero (c : Char) : Bool :=
  let n := c.toNat
  if n < 0x80 || n = 0xAD || n = 0x115F then false
  else ignorable.contains c || extending.contains c || isHangulTail n || isLeadingSign n

def ofChar (c : Char) : Nat :=
  if c.toNat < 0x300 then 1
  else if isZero c then 0
  else if c.toNat = 0x17A4 then 2
  else if c.toNat = 0x17D8 then 3
  else if wideSet.contains c then 2
  else 1

def isRegional (c : Char) : Bool := 0x1F1E6 ≤ c.toNat && c.toNat ≤ 0x1F1FF

def isModifier (c : Char) : Bool := 0x1F3FB ≤ c.toNat && c.toNat ≤ 0x1F3FF

def asText : Char := '\ufe0e'

def asEmoji : Char := '\ufe0f'

def joiner : Char := '\u200d'

def emojiLength? (cs : List Char) : Option Nat :=
  match cs with
  | [] => none
  | c :: rest =>
    let next := rest.head?
    if next = some asEmoji && emoji.contains c then some 2
    else if next.any isModifier && modifierBase.contains c then some 2
    else if next = some asText then none
    else if emojiPresentation.contains c && !isRegional c then some 1
    else none

def joinedLength : Nat → List Char → Nat
  | 0, _ => 0
  | fuel + 1, cs =>
    match emojiLength? cs with
    | none => 0
    | some n =>
      match cs.drop n with
      | c :: rest =>
        let more := if c = joiner then joinedLength fuel rest else 0
        if more = 0 then n else n + 1 + more
      | [] => n

def isLam (c : Char) : Bool :=
  let n := c.toNat
  n = 0x644 || (0x6B5 ≤ n && n ≤ 0x6B8) || n = 0x76A || n = 0x8A6 || n = 0x8C7

def isAlef (c : Char) : Bool :=
  [0x622, 0x623, 0x625, 0x627, 0x671, 0x672, 0x673, 0x675, 0x773, 0x774].contains c.toNat

def cluster (cs : List Char) : Nat × Nat :=
  match cs with
  | [] => (0, 0)
  | '\r' :: '\n' :: _ => (1, 2)
  | c :: rest =>
    let joined := joinedLength cs.length cs
    if 0 < joined then (2, joined)
    else if isLam c then
      let marks := rest.takeWhile isZero
      if (rest.drop marks.length).head?.any isAlef then (1, marks.length + 2) else (1, 1)
    else if rest.head? = some asText && emojiPresentation.contains c
        && !(0x1F200 ≤ c.toNat && c.toNat ≤ 0x1F2FF) then (1, 1)
    else (ofChar c, 1)

end VisibleText.Width

namespace VisibleText

def displayWidth (cs : List Char) : Nat :=
  match cs with
  | [] => 0
  | c :: rest =>
    let (width, n) := Width.cluster (c :: rest)
    width + displayWidth (rest.drop (n - 1))
termination_by cs.length
decreasing_by all_goals simp only [List.length_cons, List.length_drop]; omega

end VisibleText
