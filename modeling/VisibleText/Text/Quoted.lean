import VisibleText.Unicode.Category
import VisibleText.Unicode.Property

namespace VisibleText

def unseen : CharSet :=
  Unicode.categories ["Cc", "Cf", "Cs", "Co", "Cn", "Zl", "Zp", "Zs"]

def joining : CharSet := Unicode.property "Grapheme_Extend"

def hexText (n : Nat) : List Char := Nat.toDigits 16 n

def quotedChar (c : Char) : List Char :=
  if c = '"' then ['\\', '"']
  else if c = '\\' then ['\\', '\\']
  else if c = '\n' then ['\\', 'n']
  else if c = '\r' then ['\\', 'r']
  else if c = '\t' then ['\\', 't']
  else if c = '\x00' then ['\\', '0']
  else if 0x20 ≤ c.toNat && c.toNat < 0x7F then [c]
  else if joining.contains c || unseen.contains c then
    ['\\', 'u', '\x7b'] ++ hexText c.toNat ++ ['\x7d']
  else [c]

def quoted (s : String) : String :=
  String.ofList ('"' :: s.toList.flatMap quotedChar ++ ['"'])

end VisibleText
