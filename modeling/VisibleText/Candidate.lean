import VisibleText.Text.Blank
import VisibleText.Text.Utf8

namespace VisibleText.Candidate

def hasNonAscii (cs : List Char) : Bool := cs.any fun c => 0x80 ≤ c.toNat

def hasAsciiLetter (cs : List Char) : Bool := cs.any Char.isAlpha

def escapeChars : List Char := ['n', 'r', 't', 'v', 'e', 'f', '0', '\\', '\'', '"', '$']

def escapesOnly : List Char → Bool
  | [] => true
  | '\\' :: c :: rest => escapeChars.contains c && escapesOnly rest
  | c :: rest => isBlank c && escapesOnly rest

def patternOpenings : List String :=
  ["(?:", "(?=", "(?!", "(?<", "\\d", "\\w", "\\s", "\\b", "^[", "^\\"]

def nonInitial : List Char :=
  ['#', ',', '/', '$', '.', '!', ':', ';', ')', ']', '}', '%', '&', '@', '?', '^', '~', '`']

def isCandidate (cs : List Char) (minBytes : Nat) : Bool :=
  !cs.isEmpty && minBytes ≤ byteLength cs
    && (hasNonAscii cs || hasAsciiLetter cs)
    && !escapesOnly cs
    && !(patternOpenings.any fun p => p.toList.isPrefixOf cs)
    && !(cs.head?.any nonInitial.contains)

end VisibleText.Candidate
