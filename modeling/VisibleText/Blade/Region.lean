import VisibleText.Code.Delimiter

namespace VisibleText.Blade

open Code (partnerAfter?)

def ascii (s : String) : Bytes := s.toList.map Char.toUInt8

def bareDirectives : List String :=
  ["append", "auth", "break", "continue", "csrf", "default", "else", "empty", "endauth", "endcan",
    "endcanany", "endcannot", "endcomponent", "endempty", "endenv", "enderror", "endfor",
    "endforeach", "endforelse", "endfragment", "endguest", "endhasSection", "endif", "endisset",
    "endonce", "endphp", "endprepend", "endPrependOnce", "endproduction", "endpush", "endPushOnce",
    "endsection", "endsectionMissing", "endsession", "endslot", "endswitch", "endunless",
    "endverbatim", "endwhile", "guest", "livewireScripts", "livewireStyles", "once", "overwrite",
    "parent", "production", "show", "stop", "verbatim", "viteReactRefresh"]

/-- What the scanner finds at a place: how many bytes it takes, and whether they are template code;
if so, perhaps with the body of a PHP block, counted from that place. -/
inductive Find where
  | markup (length : Nat)
  | code (length : Nat) (block : Option Span)
deriving DecidableEq, Repr

def Find.length : Find → Nat
  | markup n => n
  | code n _ => n

structure Fence where
  opening : Bytes
  closing : Bytes
  holdsBlock : Bool := false

def fences : List Fence :=
  [⟨ascii "\x7b\x7b--", ascii "--\x7d\x7d", false⟩, ⟨ascii "\x7b!!", ascii "!!\x7d", false⟩,
    ⟨ascii "\x7b\x7b", ascii "\x7d\x7d", false⟩, ⟨ascii "<!--", ascii "-->", false⟩,
    ⟨ascii "<?php", ascii "?>", true⟩, ⟨ascii "<?=", ascii "?>", false⟩]

def Fence.find (f : Fence) (bs : Bytes) : Find :=
  let start := f.opening.length
  match indexOf? f.closing (bs.drop start) with
  | some i =>
    .code (start + i + f.closing.length) (if f.holdsBlock then some ⟨start, start + i⟩ else none)
  | none => .code bs.length (if f.holdsBlock then some ⟨start, bs.length⟩ else none)

def isWordByte (b : UInt8) : Bool :=
  (0x30 ≤ b && b ≤ 0x39) || (0x41 ≤ b && b ≤ 0x5A) || (0x61 ≤ b && b ≤ 0x7A) || b == 0x5F

def isDigitByte (b : UInt8) : Bool := 0x30 ≤ b && b ≤ 0x39

def atSign : UInt8 := 0x40

def directiveBlock (start : Nat) (bs : Bytes) : Find :=
  let closing := ascii "@endphp"
  match indexOf? closing (bs.drop start) with
  | some i => .code (start + i + closing.length) (some ⟨start, start + i⟩)
  | none => .code bs.length (some ⟨start, bs.length⟩)

/-- The directive with the given name of `length` bytes after the `@` that the input starts with.
Arguments belong to it if their parentheses close; other words are markup. -/
def directive (name : Bytes) (bs : Bytes) : Find :=
  let nameEnd := name.length + 1
  let gap := ((bs.drop nameEnd).takeWhile fun b => b == 0x20 || b == 0x09).length
  match bs.drop (nameEnd + gap) with
  | 0x28 :: rest =>
    match partnerAfter? .php 0x28 rest with
    | some n => .code (nameEnd + gap + n + 2) none
    | none => .code nameEnd none
  | _ =>
    if name = ascii "php" then directiveBlock nameEnd bs
    else if (bareDirectives.map ascii).contains name then .code nameEnd none
    else .markup nameEnd

def atSignFind (before : Option UInt8) (bs : Bytes) : Find :=
  let name := (bs.drop 1).takeWhile isWordByte
  if before.any isWordByte then .markup 1
  else if bs[1]? = some atSign then .markup 2
  else if name.isEmpty || name.head?.any isDigitByte then .markup 1
  else directive name bs

def findAt (before : Option UInt8) (bs : Bytes) : Find :=
  match fences.find? fun f => f.opening.isPrefixOf bs with
  | some f => f.find bs
  | none => if bs.head? = some atSign then atSignFind before bs else .markup 1

def finds (offset : Nat) (before : Option UInt8) (bs : Bytes) : List (Nat × Find) :=
  match bs with
  | [] => []
  | b :: rest =>
    let f := findAt before (b :: rest)
    let used := f.length
    (offset, f) :: finds (offset + used) ((b :: rest)[used - 1]?) (rest.drop (used - 1))
termination_by bs.length
decreasing_by all_goals simp only [List.length_cons, List.length_drop]; omega

structure Regions where
  excluded : SpanSet
  blocks : List Span
deriving Repr, Inhabited

def scan (bs : Bytes) : Regions :=
  let found := finds 0 none bs
  { excluded := .ofSpans (found.filterMap fun
      | (offset, .code n _) => some ⟨offset, offset + n⟩
      | _ => none)
    blocks := found.filterMap fun
      | (offset, .code _ (some block)) => some (block.shift offset)
      | _ => none }

def codeOutsideComments (bs : Bytes) : SpanSet :=
  .ofSpans ((finds 0 none bs).filterMap fun
    | (offset, .code n _) =>
      if (ascii "<!--").isPrefixOf (bs.drop offset) then none else some ⟨offset, offset + n⟩
    | _ => none)

end VisibleText.Blade
