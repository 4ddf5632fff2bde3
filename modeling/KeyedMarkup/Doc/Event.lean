import KeyedMarkup.Text.Blank
import KeyedMarkup.Doc.Node

/-!
# Document events

A parsed document is a flat sequence of events: constructs start and stop, and texts and other
leaves stand between. An opening tag says which node a construct starts with.
-/

namespace KeyedMarkup.Doc

inductive Align where
  | left
  | center
  | right
deriving DecidableEq, Inhabited

def Align.name : Align → String
  | .left => "left"
  | .center => "center"
  | .right => "right"

/-- A construct that can be open. `code` has an info string if it is fenced, `list` a start
number if it is ordered, and `table` an optional alignment for each column. -/
inductive Tag where
  | paragraph
  | heading (level : Nat)
  | blockquote
  | code (info : Option String)
  | html
  | list (start : Option Nat)
  | item
  | table (columns : List (Option Align))
  | tableHead
  | tableRow
  | tableCell
  | emphasis
  | strong
  | strikethrough
  | link (url title : String)
  | image (url title : String)
  | footnoteDefinition (label : String)
  | metadata
  | definitionList
  | definitionTerm
  | definitionDetails
  | superscript
  | subscript
deriving Inhabited

/-- `stop` closes whatever is innermost. -/
inductive Event where
  | start (tag : Tag)
  | stop
  | text (s : String)
  | code (s : String)
  | html (s : String)
  | inlineHtml (s : String)
  | inlineMath (s : String)
  | displayMath (s : String)
  | footnoteReference (label : String)
  | softBreak
  | hardBreak
  | rule
  | task (checked : Bool)
deriving Inhabited

/-- The language of a code block is the first word of its info string. What follows, if
anything, is told apart as its meta text. -/
def codeProperties : Option String → Properties
  | none => .empty
  | some info =>
      let (lang, rest) := splitAtBlank (trimBlanks info.toList)
      let lang := if lang.isEmpty then [] else [("lang", Property.text (String.ofList lang))]
      let extra := match rest.map trimBlanks with
        | none | some [] => []
        | some cs => [("meta", Property.text (String.ofList cs))]
      .ofList (lang ++ extra)

def targetProperties (url title : String) : Properties :=
  .ofList (("url", .text url) :: if title.isEmpty then [] else [("title", .text title)])

def listProperties (start : Option Nat) : Properties :=
  .ofList (("ordered", .flag start.isSome) ::
    (start.map fun n => ("start", Property.number (.ofNat n))).toList)

/-- The kind of the node that a tag starts. -/
def Tag.kind : Tag → Kind
  | .paragraph => .paragraph
  | .heading _ => .heading
  | .blockquote => .blockquote
  | .code _ => .code
  | .html => .html
  | .list _ => .list
  | .item => .listItem
  | .table _ => .table
  | .tableHead | .tableRow => .tableRow
  | .tableCell => .tableCell
  | .emphasis => .emphasis
  | .strong => .strong
  | .strikethrough => .delete
  | .link _ _ => .link
  | .image _ _ => .image
  | .footnoteDefinition _ => .other "footnoteDefinition"
  | .metadata => .other "frontmatter"
  | .definitionList => .other "definitionList"
  | .definitionTerm => .other "definitionTerm"
  | .definitionDetails => .other "definitionDescription"
  | .superscript => .other "superscript"
  | .subscript => .other "subscript"

/-- The properties of the node that a tag starts, the alignment of a table cell apart. -/
def Tag.properties : Tag → Properties
  | .heading level => .ofList [("depth", .number (.ofNat level))]
  | .code info => codeProperties info
  | .list start => listProperties start
  | .tableHead => .ofList [("header", .flag true)]
  | .link url title | .image url title => targetProperties url title
  | .footnoteDefinition label => .ofList [("label", .text label)]
  | _ => .empty

/-- Code and raw HTML hold their text themselves. -/
def Tag.value : Tag → Option String
  | .code _ | .html => some ""
  | _ => none

end KeyedMarkup.Doc
