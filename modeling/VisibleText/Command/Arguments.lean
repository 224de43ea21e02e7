import VisibleText.Path

namespace VisibleText.Command

inductive UsageError where
  | displayHelp
  | displayVersion
  | unknownArgument
  | invalidValue
  | valueValidation
  | argumentConflict
  | tooManyValues
  | invalidSubcommand
deriving DecidableEq, Repr, Inhabited

namespace UsageError

def exitCode : UsageError → Nat
  | displayHelp => 0
  | displayVersion => 0
  | _ => 2

end UsageError

inductive OutputFormat where
  | json
  | text
deriving DecidableEq, Repr, Inhabited

structure ExtractOptions where
  dir : Path := ⟨"."⟩
  pattern : Option String := none
  output : Option Path := none
  excludes : List String := []
  exclusionDicts : List Path := []
  minBytes : Option Nat := none
  contextLines : Option Nat := none
  splitThreshold : Option Nat := none
  noTemplates : Bool := false
  scripts : Bool := false
  format : OutputFormat := .json
  verbose : Bool := false
deriving DecidableEq, Repr, Inhabited

inductive Argument where
  | dir
  | pattern
  | output
  | exclude
  | exclusionDict
  | minBytes
  | contextLines
  | splitThreshold
  | noTemplates
  | scripts
  | format
  | verbose
  | help
  | version
deriving DecidableEq, Repr, Inhabited

namespace Argument

def long? : Argument → Option String
  | dir => none
  | pattern => some "pattern"
  | output => some "output"
  | exclude => some "exclude"
  | exclusionDict => some "exclusion-dict"
  | minBytes => some "min-bytes"
  | contextLines => some "context-lines"
  | splitThreshold => some "split-threshold"
  | noTemplates => some "no-templates"
  | scripts => some "scripts"
  | format => some "format"
  | verbose => some "verbose"
  | help => some "help"
  | version => some "version"

def short? : Argument → Option Char
  | pattern => some 'p'
  | output => some 'o'
  | exclude => some 'e'
  | exclusionDict => some 'd'
  | verbose => some 'v'
  | help => some 'h'
  | version => some 'V'
  | _ => none

def takesValue : Argument → Bool
  | noTemplates | scripts | verbose | help | version => false
  | _ => true

def isRepeatable : Argument → Bool
  | exclude | exclusionDict => true
  | _ => false

def general : List Argument := [help, version]

def ofExtract : List Argument :=
  [dir, pattern, output, exclude, exclusionDict, minBytes, contextLines, splitThreshold, noTemplates,
    scripts, format, verbose, help]

def ofInit : List Argument := [help]

end Argument

def maxNumber : Nat := 1 <<< 64 - 1

def number? (s : String) : Option Nat :=
  let digits := match s.toList with
    | '+' :: rest => rest
    | cs => cs
  if digits = [] || digits.any (fun c => !c.isDigit) then none
  else
    let n := digits.foldl (fun n c => 10 * n + (c.toNat - '0'.toNat)) 0
    if n ≤ maxNumber then some n else none

def readNumber (s : String) : Except UsageError Nat :=
  match number? s with
  | some n => .ok n
  | none => .error .valueValidation

def readPath (s : String) : Except UsageError Path :=
  if s.isEmpty then .error .invalidValue else .ok ⟨s⟩

def readFormat (s : String) : Except UsageError OutputFormat :=
  match s with
  | "json" => .ok .json
  | "text" => .ok .text
  | _ => .error .invalidValue

namespace ExtractOptions

def setValue (o : ExtractOptions) (value : String) : Argument → Except UsageError ExtractOptions
  | .dir => do return { o with dir := ← readPath value }
  | .pattern => return { o with pattern := some value }
  | .output => do return { o with output := some (← readPath value) }
  | .exclude => return { o with excludes := o.excludes ++ [value] }
  | .exclusionDict => do return { o with exclusionDicts := o.exclusionDicts ++ [← readPath value] }
  | .minBytes => do return { o with minBytes := some (← readNumber value) }
  | .contextLines => do return { o with contextLines := some (← readNumber value) }
  | .splitThreshold => do return { o with splitThreshold := some (← readNumber value) }
  | .format => do return { o with format := ← readFormat value }
  | _ => return o

def setFlag (o : ExtractOptions) : Argument → Except UsageError ExtractOptions
  | .noTemplates => .ok { o with noTemplates := true }
  | .scripts => .ok { o with scripts := true }
  | .verbose => .ok { o with verbose := true }
  | .help => .error .displayHelp
  | .version => .error .displayVersion
  | _ => .ok o

end ExtractOptions

structure Progress where
  options : ExtractOptions := {}
  given : List Argument := []
  pending : Option (Argument × Option String) := none
  onlyPlain : Bool := false
deriving Repr, Inhabited

namespace Progress

def give (p : Progress) (a : Argument) : Except UsageError Progress :=
  if a ∈ p.given ∧ ¬ a.isRepeatable then .error .argumentConflict
  else .ok { p with given := a :: p.given }

def settle (p : Progress) : Except UsageError Progress :=
  match p.pending with
  | none => .ok p
  | some (_, none) => .error .invalidValue
  | some (a, some value) => do
    let p ← p.give a
    return { p with options := ← p.options.setValue value a, pending := none }

def takeValue (p : Progress) (a : Argument) (value : String) : Except UsageError Progress := do
  let p ← p.settle
  let p ← p.give a
  return { p with options := ← p.options.setValue value a }

def takeFlag (p : Progress) (a : Argument) : Except UsageError Progress := do
  let p ← p.settle
  let p ← p.give a
  return { p with options := ← p.options.setFlag a }

def await (p : Progress) (a : Argument) (value : Option String) : Except UsageError Progress := do
  let p ← p.settle
  return { p with pending := some (a, value) }

def takeLong (known : List Argument) (p : Progress) (body : List Char) : Except UsageError Progress :=
  let name := String.ofList (body.takeWhile (· ≠ '='))
  match known.find? (fun a => a.long? = some name), body.dropWhile (· ≠ '=') with
  | none, _ => .error .unknownArgument
  | some a, [] => if a.takesValue then p.await a none else p.takeFlag a
  | some a, _ :: value =>
    if a.takesValue then p.takeValue a (String.ofList value) else .error .tooManyValues

def takeShort (known : List Argument) (p : Progress) : List Char → Except UsageError Progress
  | [] => .ok p
  | c :: rest =>
    match known.find? (fun a => a.short? = some c) with
    | none => .error .unknownArgument
    | some a =>
      if a.takesValue then
        match rest with
        | [] => p.await a none
        | '=' :: value => p.takeValue a (String.ofList value)
        | value => p.takeValue a (String.ofList value)
      else
        match p.takeFlag a with
        | .ok p => takeShort known p rest
        | .error e => .error e

def takePlain (known : List Argument) (p : Progress) (word : String) : Except UsageError Progress :=
  let taken := Argument.dir ∈ p.given ∨ p.pending.map (·.1) = some .dir
  if Argument.dir ∉ known ∨ taken then .error .unknownArgument else p.await .dir (some word)

def takeWord (known : List Argument) (p : Progress) (word : String) : Except UsageError Progress :=
  match p.pending with
  | some (a, none) => .ok { p with pending := some (a, some word) }
  | _ => p.takePlain known word

def take (known : List Argument) (p : Progress) (word : String) : Except UsageError Progress :=
  if p.onlyPlain then p.takePlain known word
  else
    match word.toList with
    | ['-', '-'] => .ok { p with onlyPlain := true }
    | '-' :: '-' :: body => p.takeLong known body
    | ['-'] => p.takeWord known word
    | '-' :: letters => p.takeShort known letters
    | _ => p.takeWord known word

end Progress

def readOptions (known : List Argument) (words : List String) : Except UsageError ExtractOptions := do
  return (← (← words.foldlM (Progress.take known) {}).settle).options

inductive Request where
  | describe
  | init
  | extract (options : ExtractOptions)
deriving DecidableEq, Repr, Inhabited

namespace Request

def isVerbose : Request → Bool
  | extract o => o.verbose
  | _ => false

def names : List String := ["extract", "init", "help"]

def help : List String → UsageError
  | [] => .displayHelp
  | [name] => if name ∈ names then .displayHelp else .invalidSubcommand
  | _ => .invalidSubcommand

/-- The error for a first word that is no command. Behind `--`, where only a plain word can stand,
the name of a command is one too many. -/
def strayWord (afterDashes : Bool) (word : String) : UsageError :=
  if afterDashes && names.contains word then .unknownArgument else .invalidSubcommand

def parse : List String → Except UsageError Request
  | [] => .ok .describe
  | "extract" :: words => do return .extract (← readOptions Argument.ofExtract words)
  | "init" :: words => do
    let _ ← readOptions Argument.ofInit words
    return .init
  | "help" :: words => .error (help words)
  | "--" :: [] => .ok .describe
  | "--" :: word :: _ => .error (strayWord true word)
  | word :: _ =>
    match word.toList with
    | '-' :: '-' :: body => do
      let _ ← Progress.takeLong Argument.general {} body
      return .describe
    | '-' :: c :: letters => do
      let _ ← Progress.takeShort Argument.general {} (c :: letters)
      return .describe
    | _ => .error (strayWord false word)

end Request

end VisibleText.Command
