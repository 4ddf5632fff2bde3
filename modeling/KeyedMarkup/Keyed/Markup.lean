import KeyedMarkup.Keyed.Element
import KeyedMarkup.Number.Text

/-!
# Static markup

An element is written with its attributes in the order of their names. A flag is written as an
empty attribute if it is set and not at all if it is not, a list of tokens is joined by spaces
and left out if it is empty, and void elements close themselves. Keys are not written.
-/

namespace KeyedMarkup.Keyed

namespace Markup

/-- Elements that have no content and no closing tag. -/
def voidTags : List String :=
  ["area", "base", "br", "col", "embed", "hr", "img", "input", "link", "meta", "source", "track",
    "wbr"]

def escapeChar : Char → List Char
  | '&' => "&amp;".toList
  | '<' => "&lt;".toList
  | '>' => "&gt;".toList
  | '"' => "&quot;".toList
  | '\'' => "&#x27;".toList
  | c => [c]

/-- The text as it stands in content and in attribute values. -/
def escape (s : String) : String := String.ofList (s.toList.flatMap escapeChar)

/-- The text that an attribute stands for, if it is written. -/
def valueText : Property → Option String
  | .flag set => if set then some "" else none
  | .number x => some x.markupText
  | .text s => some s
  | .tokens [] => none
  | .tokens ts => some (" ".intercalate ts)

/-- One attribute with a space before it, or nothing. -/
def attributeText (name : String) (value : Property) : String :=
  match valueText value with
  | some s => " " ++ name ++ "=\"" ++ escape s ++ "\""
  | none => ""

def attributesText (ps : Properties) : String :=
  "".intercalate (ps.entries.map fun e => attributeText e.1 e.2)

end Markup

open Markup

mutual

/-- The markup of a node. -/
def Node.markup : Node → String
  | .element e => e.markup
  | .text s => escape s
  | .raw s => s

/-- The markup of an element and of all that is below it. -/
def Element.markup : Element → String
  | ⟨tag, _, properties, children⟩ =>
      let opening := "<" ++ tag ++ attributesText properties
      if voidTags.contains tag then opening ++ "/>"
      else opening ++ ">" ++ markupOfAll children ++ "</" ++ tag ++ ">"

def markupOfAll : List Node → String
  | [] => ""
  | n :: rest => n.markup ++ markupOfAll rest

end

end KeyedMarkup.Keyed
