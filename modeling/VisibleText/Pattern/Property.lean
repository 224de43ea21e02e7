import VisibleText.Unicode.Category
import VisibleText.Unicode.Property
import VisibleText.Unicode.Script

namespace VisibleText.Pattern

def plainName (name : List Char) : List Char :=
  let lower := fun (cs : List Char) =>
    (cs.filter fun c => c != ' ' && c != '_' && c != '-' && c.toNat < 0x80).map Char.toLower
  match name with
  | i :: s :: rest =>
    if i.toLower = 'i' && s.toLower = 's' then
      let plain := lower rest
      if plain = ['c'] then ['i', 's', 'c'] else plain
    else lower name
  | _ => lower name

def categoryGroups : List (List String × List String) := [
  (["C", "Other"], ["Cc", "Cf", "Cn", "Co"]),
  (["Cc", "Control", "cntrl"], ["Cc"]),
  (["Cf", "Format"], ["Cf"]),
  (["Cn", "Unassigned"], ["Cn"]),
  (["Co", "Private_Use"], ["Co"]),
  (["L", "Letter"], ["Ll", "Lm", "Lo", "Lt", "Lu"]),
  (["LC", "Cased_Letter"], ["Ll", "Lt", "Lu"]),
  (["Ll", "Lowercase_Letter"], ["Ll"]),
  (["Lm", "Modifier_Letter"], ["Lm"]),
  (["Lo", "Other_Letter"], ["Lo"]),
  (["Lt", "Titlecase_Letter"], ["Lt"]),
  (["Lu", "Uppercase_Letter"], ["Lu"]),
  (["M", "Mark", "Combining_Mark"], ["Mc", "Me", "Mn"]),
  (["Mc", "Spacing_Mark"], ["Mc"]),
  (["Me", "Enclosing_Mark"], ["Me"]),
  (["Mn", "Nonspacing_Mark"], ["Mn"]),
  (["N", "Number"], ["Nd", "Nl", "No"]),
  (["Nd", "Decimal_Number", "digit"], ["Nd"]),
  (["Nl", "Letter_Number"], ["Nl"]),
  (["No", "Other_Number"], ["No"]),
  (["P", "Punctuation", "punct"], ["Pc", "Pd", "Pe", "Pf", "Pi", "Po", "Ps"]),
  (["Pc", "Connector_Punctuation"], ["Pc"]),
  (["Pd", "Dash_Punctuation"], ["Pd"]),
  (["Pe", "Close_Punctuation"], ["Pe"]),
  (["Pf", "Final_Punctuation"], ["Pf"]),
  (["Pi", "Initial_Punctuation"], ["Pi"]),
  (["Po", "Other_Punctuation"], ["Po"]),
  (["Ps", "Open_Punctuation"], ["Ps"]),
  (["S", "Symbol"], ["Sc", "Sk", "Sm", "So"]),
  (["Sc", "Currency_Symbol"], ["Sc"]),
  (["Sk", "Modifier_Symbol"], ["Sk"]),
  (["Sm", "Math_Symbol"], ["Sm"]),
  (["So", "Other_Symbol"], ["So"]),
  (["Z", "Separator"], ["Zl", "Zp", "Zs"]),
  (["Zl", "Line_Separator"], ["Zl"]),
  (["Zp", "Paragraph_Separator"], ["Zp"]),
  (["Zs", "Space_Separator"], ["Zs"])]

def named (names : List String) (plain : List Char) : Bool :=
  names.any fun n => plainName n.toList == plain

def generalCategory? (plain : List Char) : Option CharSet :=
  if plain = "any".toList then some .all
  else if plain = "assigned".toList then some (Unicode.category "Cn").compl
  else if plain = "ascii".toList then some ⟨[(0, 0x7F)]⟩
  else (categoryGroups.find? fun g => named g.1 plain).map fun g => Unicode.categories g.2

def script? (plain : List Char) : Option CharSet :=
  (Unicode.scriptTable.find? fun s => named s.1 plain).map fun s => .ofGaps s.2

def scriptExtensions? (plain : List Char) : Option CharSet :=
  (Unicode.scriptTable.find? fun s => named s.1 plain).map fun s =>
    match s.1.head?.bind fun short => Unicode.scriptExtensionTable.lookup short with
    | some gaps => .ofGaps gaps
    | none => .ofGaps s.2

def binary? (plain : List Char) : Option CharSet :=
  (Unicode.propertyTable.find? fun p => named p.1 plain).map fun p => .ofGaps p.2

def propertyNamed? (name : List Char) : Option CharSet :=
  let plain := plainName name
  let asProperty := if named ["cf", "sc", "lc"] plain then none else binary? plain
  asProperty <|> generalCategory? plain <|> script? plain

def propertyValue? (name value : List Char) : Option CharSet :=
  let plain := plainName name
  if named ["gc", "General_Category"] plain then generalCategory? (plainName value)
  else if named ["sc", "Script"] plain then script? (plainName value)
  else if named ["scx", "Script_Extensions"] plain then scriptExtensions? (plainName value)
  else none

end VisibleText.Pattern
