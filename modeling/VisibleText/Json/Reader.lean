import VisibleText.Json.Float
import VisibleText.Text.Quoted
import VisibleText.Text.Utf8

namespace VisibleText.Json

inductive Fault where
  | endOfValue
  | endOfList
  | endOfObject
  | endOfString
  | expectedColon
  | expectedListCommaOrEnd
  | expectedObjectCommaOrEnd
  | expectedWord
  | expectedValue
  | invalidEscape
  | invalidNumber
  | numberOutOfRange
  | controlCharacter
  | keyNotString
  | loneSurrogate
  | unfinishedSurrogate
  | trailingComma
  | trailingCharacters
  | shape (text : String)
deriving DecidableEq, Repr, Inhabited

inductive Category where
  | syntactic
  | data
  | eof
deriving DecidableEq, Repr, Inhabited

namespace Fault

def message : Fault → String
  | endOfValue => "EOF while parsing a value"
  | endOfList => "EOF while parsing a list"
  | endOfObject => "EOF while parsing an object"
  | endOfString => "EOF while parsing a string"
  | expectedColon => "expected `:`"
  | expectedListCommaOrEnd => "expected `,` or `]`"
  | expectedObjectCommaOrEnd => "expected `,` or `\x7d`"
  | expectedWord => "expected ident"
  | expectedValue => "expected value"
  | invalidEscape => "invalid escape"
  | invalidNumber => "invalid number"
  | numberOutOfRange => "number out of range"
  | controlCharacter => "control character (\\u0000-\\u001F) found while parsing a string"
  | keyNotString => "key must be a string"
  | loneSurrogate => "lone leading surrogate in hex escape"
  | unfinishedSurrogate => "unexpected end of hex escape"
  | trailingComma => "trailing comma"
  | trailingCharacters => "trailing characters"
  | shape text => text

def category : Fault → Category
  | endOfValue => .eof
  | endOfList => .eof
  | endOfObject => .eof
  | endOfString => .eof
  | shape _ => .data
  | _ => .syntactic

end Fault

structure ReadError where
  fault : Fault
  offset : Nat
deriving DecidableEq, Repr, Inhabited

namespace ReadError

def message (e : ReadError) (document : Bytes) : String :=
  let before := document.take e.offset
  let line := (before.filter (· == 0x0A)).length + 1
  let column := (before.reverse.takeWhile (· != 0x0A)).length
  e.fault.message ++ " at line " ++ toString line ++ " column " ++ toString column

end ReadError

structure Cursor where
  offset : Nat
  rest : Bytes
deriving Repr, Inhabited

abbrev Reader := StateT Cursor (Except ReadError)

namespace Reader

def fail {α : Type} (f : Fault) : Reader α := do throw ⟨f, (← get).offset⟩

def failNext {α : Type} (f : Fault) : Reader α := do
  let c ← get
  throw ⟨f, if c.rest.isEmpty then c.offset else c.offset + 1⟩

def byte (c : Char) : UInt8 := c.toUInt8

def peek : Reader (Option UInt8) := do return (← get).rest.head?

def drop (n : Nat) : Reader Unit :=
  modify fun c => ⟨c.offset + min n c.rest.length, c.rest.drop n⟩

def next : Reader (Option UInt8) := do
  let b ← peek
  drop 1
  return b

def isSpace (b : UInt8) : Bool := b == 0x20 || b == 0x0A || b == 0x0D || b == 0x09

def skipSpace : Reader (Option UInt8) := do
  drop ((← get).rest.takeWhile isSpace).length
  peek

def isDigit (b : UInt8) : Bool := 0x30 ≤ b && b ≤ 0x39

def digits : Reader Bytes := do
  let ds := (← get).rest.takeWhile isDigit
  drop ds.length
  return ds

def word : List Char → Reader Unit
  | [] => pure ()
  | c :: cs => do
    match ← next with
    | none => fail .endOfValue
    | some b => if b == byte c then word cs else fail .expectedWord

inductive Number where
  | natural (n : Nat)
  | negative (n : Nat)
  | float (negative : Bool) (x : Float53)
deriving Repr, Inhabited

def maxNatural : Nat := 1 <<< 64 - 1

def digitValue (b : UInt8) : Nat := b.toNat - 0x30

def absorb (n : Nat) : Bytes → Nat × Bytes
  | [] => (n, [])
  | d :: ds =>
    let m := 10 * n + digitValue d
    if maxNatural < m then (n, d :: ds) else absorb m ds

def floatOf (negative : Bool) (significand : Nat) (exponent : Int) : Reader Number := do
  match Float53.ofDecimal? 16 significand exponent with
  | some x => return .float negative x
  | none => fail .numberOutOfRange

def exponent (negative : Bool) (significand : Nat) (start : Int) : Reader Number := do
  drop 1
  let below ← match ← peek with
    | some 0x2B => drop 1; pure false
    | some 0x2D => drop 1; pure true
    | _ => pure false
  match ← next with
  | none => fail .endOfValue
  | some b =>
    if !isDigit b then fail .invalidNumber
    else
      let ds ← digits
      let e := (b :: ds).foldl (fun e d => 10 * e + digitValue d) 0
      if e < 1 <<< 31 then floatOf negative significand (if below then start - e else start + e)
      else if significand ≠ 0 && !below then fail .numberOutOfRange
      else return .float negative .zero

def fraction (negative : Bool) (significand : Nat) (start : Int) : Reader Number := do
  drop 1
  let ds ← digits
  let (significand, left) := absorb significand ds
  if ds.isEmpty then
    match ← peek with
    | some _ => failNext .invalidNumber
    | none => failNext .endOfValue
  else
    let e := start - (ds.length - left.length : Nat)
    match ← peek with
    | some 0x65 => exponent negative significand e
    | some 0x45 => exponent negative significand e
    | _ => floatOf negative significand e

def number (negative : Bool) : Reader Number := do
  match ← next with
  | none => fail .endOfValue
  | some b =>
    if !isDigit b then fail .invalidNumber
    else
      let ds ← if b == 0x30 then pure [] else digits
      let following ← peek
      if b == 0x30 && following.any isDigit then failNext .invalidNumber
      let (significand, left) := absorb (digitValue b) ds
      match following with
      | some 0x2E => fraction negative significand left.length
      | some 0x65 => exponent negative significand left.length
      | some 0x45 => exponent negative significand left.length
      | _ =>
        if !left.isEmpty then floatOf negative significand left.length
        else if !negative then return .natural significand
        else if significand = 0 || 1 <<< 63 < significand then floatOf true significand 0
        else return .negative significand

def hexValue? (b : UInt8) : Option Nat :=
  if isDigit b then some (b.toNat - 0x30)
  else if 0x61 ≤ b && b ≤ 0x66 then some (b.toNat - 0x61 + 10)
  else if 0x41 ≤ b && b ≤ 0x46 then some (b.toNat - 0x41 + 10)
  else none

def hexEscape : Reader Nat := do
  let four := (← get).rest.take 4
  drop four.length
  if four.length < 4 then fail .endOfString
  else
    match four.foldl (fun v b => do return (← v) * 16 + (← hexValue? b)) (some 0) with
    | some v => return v
    | none => fail .invalidEscape

def expectPair (b : UInt8) : Reader Unit := do
  match ← peek with
  | none => fail .endOfString
  | some c =>
    drop 1
    if c != b then fail .unfinishedSurrogate

def unicodeEscape : Reader Char := do
  let n ← hexEscape
  if 0xDC00 ≤ n && n ≤ 0xDFFF then fail .loneSurrogate
  else if n < 0xD800 || 0xDBFF < n then return Char.ofNat n
  else
    expectPair (byte '\\')
    expectPair (byte 'u')
    let low ← hexEscape
    if low < 0xDC00 || 0xDFFF < low then fail .loneSurrogate
    else return Char.ofNat (0x10000 + (n - 0xD800) * 0x400 + (low - 0xDC00))

def simpleEscape? (b : UInt8) : Option UInt8 :=
  [('"', '"'), ('\\', '\\'), ('/', '/'), ('b', '\x08'), ('f', '\x0c'), ('n', '\n'), ('r', '\r'),
    ('t', '\t')].findSome? fun (name, c) => if byte name == b then some (byte c) else none

def escapeBytes : Reader Bytes := do
  match ← next with
  | none => fail .endOfString
  | some b =>
    if b == byte 'u' then return utf8 [← unicodeEscape]
    else
      match simpleEscape? b with
      | some c => return [c]
      | none => fail .invalidEscape

def stringBytes : Nat → Bytes → Reader Bytes
  | 0, _ => fail .endOfString
  | fuel + 1, acc => do
    match ← peek with
    | none => fail .endOfString
    | some b =>
      drop 1
      if b == byte '"' then return acc.reverse
      else if b == byte '\\' then stringBytes fuel ((← escapeBytes).reverse ++ acc)
      else if b < 0x20 then fail .controlCharacter
      else stringBytes fuel (b :: acc)

def string : Reader String := do return decode (← stringBytes ((← get).rest.length + 1) [])

def passString : Nat → Reader Unit
  | 0 => fail .endOfString
  | fuel + 1 => do
    match ← peek with
    | none => fail .endOfString
    | some b =>
      if b == byte '"' then drop 1
      else if b == byte '\\' then
        drop 1
        match ← next with
        | none => fail .endOfString
        | some e =>
          if e == byte 'u' then
            let _ ← hexEscape
          else if (simpleEscape? e).isNone then fail .invalidEscape
        passString fuel
      else if b < 0x20 then fail .controlCharacter
      else
        drop 1
        passString fuel

def passExponent : Reader Unit := do
  drop 1
  match ← peek with
  | some 0x2B => drop 1
  | some 0x2D => drop 1
  | _ => pure ()
  match ← next with
  | some b => if isDigit b then let _ ← digits else fail .invalidNumber
  | none => fail .invalidNumber

def passNumber : Reader Unit := do
  match ← next with
  | none => fail .invalidNumber
  | some b =>
    if b == 0x30 then
      if (← peek).any isDigit then failNext .invalidNumber
    else if isDigit b then
      let _ ← digits
    else fail .invalidNumber
  match ← peek with
  | some 0x2E =>
    drop 1
    if (← digits).isEmpty then failNext .invalidNumber
    match ← peek with
    | some 0x65 => passExponent
    | some 0x45 => passExponent
    | _ => pure ()
  | some 0x65 => passExponent
  | some 0x45 => passExponent
  | _ => pure ()

def passKey : Reader Unit := do
  match ← skipSpace with
  | none => fail .endOfObject
  | some b => if b == byte '"' then drop 1 else failNext .keyNotString
  passString ((← get).rest.length + 1)
  match ← skipSpace with
  | none => fail .endOfObject
  | some b => if b == byte ':' then drop 1 else failNext .expectedColon

/-- Closes the innermost lists and objects that end here, and passes over the comma behind them.
`true` stands for an object; `fresh` says that nothing stands yet in the innermost one. -/
def closeOpen : List Bool → Bool → Reader (List Bool)
  | [], _ => return []
  | isObject :: outer, fresh => do
    match ← skipSpace with
    | none => fail (if isObject then .endOfObject else .endOfList)
    | some b =>
      if b == byte (if isObject then '\x7d' else ']') then
        drop 1
        closeOpen outer false
      else if fresh then return isObject :: outer
      else if b == byte ',' then
        drop 1
        return isObject :: outer
      else failNext (if isObject then .expectedObjectCommaOrEnd else .expectedListCommaOrEnd)

def passValues : Nat → List Bool → Reader Unit
  | 0, _ => fail .endOfValue
  | fuel + 1, opened => do
    let here ← match ← skipSpace with
      | none => fail .endOfValue
      | some b =>
        if b == byte 'n' then drop 1; word "ull".toList; pure none
        else if b == byte 't' then drop 1; word "rue".toList; pure none
        else if b == byte 'f' then drop 1; word "alse".toList; pure none
        else if b == byte '-' then drop 1; passNumber; pure none
        else if isDigit b then passNumber; pure none
        else if b == byte '"' then drop 1; passString ((← get).rest.length + 1); pure none
        else if b == byte '[' then drop 1; pure (some false)
        else if b == byte '\x7b' then drop 1; pure (some true)
        else failNext .expectedValue
    let left ← match here with
      | some isObject => closeOpen (isObject :: opened) true
      | none => closeOpen opened false
    match left with
    | [] => return ()
    | isObject :: _ =>
      if isObject then passKey
      passValues fuel left

def pass : Reader Unit := do passValues ((← get).rest.length + 1) []

def mismatch (found expected : String) : Fault := .shape ("invalid type: " ++ found ++ ", expected " ++ expected)

/-- Fails at a value of another shape; scalars are read first, and may themselves be faulty. -/
def unexpected {α : Type} (expected : String) : Reader α := do
  match ← peek with
  | none => failNext .expectedValue
  | some b =>
    if b == byte 'n' then drop 1; word "ull".toList; fail (mismatch "null" expected)
    else if b == byte 't' then drop 1; word "rue".toList; fail (mismatch "boolean `true`" expected)
    else if b == byte 'f' then drop 1; word "alse".toList; fail (mismatch "boolean `false`" expected)
    else if b == byte '-' then drop 1; numeral (← number true)
    else if isDigit b then numeral (← number false)
    else if b == byte '"' then drop 1; fail (mismatch ("string " ++ quoted (← string)) expected)
    else if b == byte '[' then fail (mismatch "sequence" expected)
    else if b == byte '\x7b' then fail (mismatch "map" expected)
    else failNext .expectedValue
where
  numeral : Number → Reader α
    | .natural n => fail (mismatch ("integer `" ++ toString n ++ "`") expected)
    | .negative n => fail (mismatch ("integer `-" ++ toString n ++ "`") expected)
    | .float negative x =>
      fail (mismatch ("floating point `" ++ (if negative then "-" else "") ++ x.render ++ "`") expected)

def first : Reader UInt8 := do
  match ← skipSpace with
  | some b => return b
  | none => failNext .endOfValue

def readString : Reader String := do
  if (← first) == byte '"' then drop 1; string else unexpected "a string"

def readBool : Reader Bool := do
  let b ← first
  if b == byte 't' then drop 1; word "rue".toList; return true
  else if b == byte 'f' then drop 1; word "alse".toList; return false
  else unexpected "a boolean"

def readNat : Reader Nat := do
  let b ← first
  let negative := b == byte '-'
  if !negative && !isDigit b then unexpected "usize"
  else
    if negative then drop 1
    match ← number negative with
    | .natural n => return n
    | .negative n => fail (.shape ("invalid value: integer `-" ++ toString n ++ "`, expected usize"))
    | .float negative x =>
      fail (mismatch ("floating point `" ++ (if negative then "-" else "") ++ x.render ++ "`") "usize")

def readOption {α : Type} (item : Reader α) : Reader (Option α) := do
  if (← skipSpace) == some (byte 'n') then drop 1; word "ull".toList; return none
  else return some (← item)

def moreItems (fresh : Bool) : Reader Bool := do
  match ← skipSpace with
  | none => failNext .endOfList
  | some b =>
    if b == byte ']' then return false
    else if fresh then return true
    else if b == byte ',' then
      drop 1
      match ← skipSpace with
      | none => failNext .endOfValue
      | some b => if b == byte ']' then failNext .trailingComma else return true
    else failNext .expectedListCommaOrEnd

def items {α : Type} (item : Reader α) : Nat → List α → Reader (List α)
  | 0, _ => fail .endOfList
  | fuel + 1, acc => do
    if ← moreItems acc.isEmpty then items item fuel ((← item) :: acc)
    else
      drop 1
      return acc.reverse

def readList {α : Type} (item : Reader α) : Reader (List α) := do
  if (← first) == byte '[' then
    drop 1
    items item ((← get).rest.length + 1) []
  else unexpected "a sequence"

def endList : Reader Unit := do
  match ← skipSpace with
  | none => failNext .endOfList
  | some b =>
    if b == byte ']' then drop 1
    else if b == byte ',' then
      drop 1
      if (← skipSpace) == some (byte ']') then failNext .trailingComma
      else failNext .trailingCharacters
    else failNext .trailingCharacters

def nextKey (fresh : Bool) : Reader (Option String) := do
  match ← skipSpace with
  | none => failNext .endOfObject
  | some b =>
    if b == byte '\x7d' then return none
    else
      if !fresh then
        if b == byte ',' then drop 1 else failNext .expectedObjectCommaOrEnd
      match ← skipSpace with
      | none => failNext .endOfValue
      | some b =>
        if b == byte '"' then
          drop 1
          return some (← string)
        else if b == byte '\x7d' then failNext .trailingComma
        else failNext .keyNotString

def colon : Reader Unit := do
  match ← skipSpace with
  | none => failNext .endOfObject
  | some b => if b == byte ':' then drop 1 else failNext .expectedColon

def finish : Reader Unit := do
  match ← skipSpace with
  | none => return ()
  | some _ => failNext .trailingCharacters

end Reader

end VisibleText.Json
