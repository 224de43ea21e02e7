import VisibleText.Span

namespace VisibleText.Markup

inductive Kind where
  | document
  | doctype
  | element
  | scriptElement
  | styleElement
  | startTag
  | selfClosingTag
  | endTag
  | erroneousEndTag
  | tagName
  | erroneousEndTagName
  | attr
  | attributeName
  | attributeValue
  | quotedAttributeValue
  | rawText
  | text
  | entity
  | comment
  | error
deriving DecidableEq, Repr, Inhabited

def Kind.name : Kind → String
  | document => "document"
  | doctype => "doctype"
  | element => "element"
  | scriptElement => "script_element"
  | styleElement => "style_element"
  | startTag => "start_tag"
  | selfClosingTag => "self_closing_tag"
  | endTag => "end_tag"
  | erroneousEndTag => "erroneous_end_tag"
  | tagName => "tag_name"
  | erroneousEndTagName => "erroneous_end_tag_name"
  | attr => "attribute"
  | attributeName => "attribute_name"
  | attributeValue => "attribute_value"
  | quotedAttributeValue => "quoted_attribute_value"
  | rawText => "raw_text"
  | text => "text"
  | entity => "entity"
  | comment => "comment"
  | error => "ERROR"

inductive Node where
  | mk (kind : Kind) (span : Span) (children : List Node)
deriving Repr, Inhabited

namespace Node

def kind : Node → Kind
  | mk k _ _ => k

def span : Node → Span
  | mk _ s _ => s

def children : Node → List Node
  | mk _ _ c => c

def leaf (kind : Kind) (start stop : Nat) : Node := mk kind ⟨start, stop⟩ []

def preorder (depth : Nat) : Node → List (Nat × Kind × Span)
  | mk k s children => (depth, k, s) :: preorderAll (depth + 1) children
where
  preorderAll (depth : Nat) : List Node → List (Nat × Kind × Span)
    | [] => []
    | n :: ns => n.preorder depth ++ preorderAll depth ns

end Node

end VisibleText.Markup
