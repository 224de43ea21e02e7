import VisibleText.Text.Utf8

namespace VisibleText.Markup

structure Tag where
  name : String
deriving DecidableEq, Repr, Inhabited

namespace Tag

def voidNames : List String :=
  ["AREA", "BASE", "BASEFONT", "BGSOUND", "BR", "COL", "COMMAND", "EMBED", "FRAME", "HR", "IMAGE",
    "IMG", "INPUT", "ISINDEX", "KEYGEN", "LINK", "MENUITEM", "META", "NEXTID", "PARAM", "SOURCE",
    "TRACK", "WBR"]

def otherNames : List String :=
  ["A", "ABBR", "ADDRESS", "ARTICLE", "ASIDE", "AUDIO", "B", "BDI", "BDO", "BLOCKQUOTE", "BODY",
    "BUTTON", "CANVAS", "CAPTION", "CITE", "CODE", "COLGROUP", "DATA", "DATALIST", "DD", "DEL",
    "DETAILS", "DFN", "DIALOG", "DIV", "DL", "DT", "EM", "FIELDSET", "FIGCAPTION", "FIGURE",
    "FOOTER", "FORM", "H1", "H2", "H3", "H4", "H5", "H6", "HEAD", "HEADER", "HGROUP", "HTML", "I",
    "IFRAME", "INS", "KBD", "LABEL", "LEGEND", "LI", "MAIN", "MAP", "MARK", "MATH", "MENU", "METER",
    "NAV", "NOSCRIPT", "OBJECT", "OL", "OPTGROUP", "OPTION", "OUTPUT", "P", "PICTURE", "PRE",
    "PROGRESS", "Q", "RB", "RP", "RT", "RTC", "RUBY", "S", "SAMP", "SCRIPT", "SECTION", "SELECT",
    "SLOT", "SMALL", "SPAN", "STRONG", "STYLE", "SUB", "SUMMARY", "SUP", "SVG", "TABLE", "TBODY",
    "TD", "TEMPLATE", "TEXTAREA", "TFOOT", "TH", "THEAD", "TIME", "TITLE", "TR", "U", "UL", "VAR",
    "VIDEO"]

def isVoid (t : Tag) : Bool := voidNames.contains t.name

def isKnown (t : Tag) : Bool := t.isVoid || otherNames.contains t.name

def sameType (a b : Tag) : Bool := a == b || (!a.isKnown && !b.isKnown)

def notInParagraph : List String :=
  ["ADDRESS", "ARTICLE", "ASIDE", "BLOCKQUOTE", "DETAILS", "DIV", "DL", "FIELDSET", "FIGCAPTION",
    "FIGURE", "FOOTER", "FORM", "H1", "H2", "H3", "H4", "H5", "H6", "HEADER", "HR", "MAIN", "NAV",
    "OL", "P", "PRE", "SECTION"]

def canContain (parent child : Tag) : Bool :=
  match parent.name with
  | "LI" => child.name != "LI"
  | "DT" | "DD" => !(["DT", "DD"].contains child.name)
  | "P" => !notInParagraph.contains child.name
  | "COLGROUP" => child.name == "COL"
  | "RB" | "RT" | "RP" => !(["RB", "RT", "RP"].contains child.name)
  | "OPTGROUP" => child.name != "OPTGROUP"
  | "TR" => child.name != "TR"
  | "TD" | "TH" => !(["TD", "TH", "TR"].contains child.name)
  | _ => true

def closesAtEnd (t : Tag) : Bool := ["HTML", "HEAD", "BODY"].contains t.name

def isNameByte (b : UInt8) : Bool :=
  (0x30 ≤ b && b ≤ 0x39) || (0x41 ≤ b && b ≤ 0x5A) || (0x61 ≤ b && b ≤ 0x7A) || b == 0x2D || b == 0x3A

def ofBytes (name : Bytes) : Tag :=
  ⟨String.ofList (name.map fun b => (Char.ofNat b.toNat).toUpper)⟩

/-- True when the innermost of the open tags, given innermost first, is closed by what comes next.
`rest` is what follows the `<`, or nothing at the end of the input. Before an end tag that is so if
it does not close the innermost tag, but one further out of its type; before a start tag, if the
innermost tag is void or cannot hold what starts. -/
def closesImplicitly (stack : List Tag) (rest : Bytes) : Bool :=
  match stack with
  | [] => false
  | parent :: _ =>
    let ending := rest.head? = some 0x2F
    let after := if ending then rest.drop 1 else rest
    let name := after.takeWhile isNameByte
    let atEnd := name.length = after.length
    let next := ofBytes name
    if ending then
      (!name.isEmpty || atEnd) && next != parent && stack.any (sameType · next)
    else
      parent.isVoid || ((!name.isEmpty || atEnd)
        && (!parent.canContain next || (parent.closesAtEnd && atEnd)))

end Tag

end VisibleText.Markup
