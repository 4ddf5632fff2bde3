/-!
# Kinds of document nodes

A kind is one of the recognized constructs of a document, or any other name, kept as it was
given. Reading a name never yields `other` for a recognized one.
-/

namespace KeyedMarkup.Doc

inductive Kind where
  | root
  | heading
  | paragraph
  | text
  | emphasis
  | strong
  | delete
  | link
  | image
  | inlineCode
  | code
  | blockquote
  | list
  | listItem
  | thematicBreak
  | lineBreak
  | html
  | table
  | tableRow
  | tableCell
  | other (name : String)
deriving DecidableEq, Inhabited

namespace Kind

/-- The name of a kind in a written tree. -/
def name : Kind → String
  | .root => "root"
  | .heading => "heading"
  | .paragraph => "paragraph"
  | .text => "text"
  | .emphasis => "emphasis"
  | .strong => "strong"
  | .delete => "delete"
  | .link => "link"
  | .image => "image"
  | .inlineCode => "inlineCode"
  | .code => "code"
  | .blockquote => "blockquote"
  | .list => "list"
  | .listItem => "listItem"
  | .thematicBreak => "thematicBreak"
  | .lineBreak => "break"
  | .html => "html"
  | .table => "table"
  | .tableRow => "tableRow"
  | .tableCell => "tableCell"
  | .other name => name

/-- The recognized kinds. -/
def recognizedKinds : List Kind :=
  [.root, .heading, .paragraph, .text, .emphasis, .strong, .delete, .link, .image, .inlineCode,
    .code, .blockquote, .list, .listItem, .thematicBreak, .lineBreak, .html, .table, .tableRow,
    .tableCell]

/-- The kind with a given name. -/
def ofName (name : String) : Kind :=
  (recognizedKinds.find? (·.name == name)).getD (.other name)

def recognized : Kind → Bool
  | .other _ => false
  | _ => true

/-- Whether nodes of the kind are blocks, which stand on lines of their own. -/
def isBlock : Kind → Bool
  | .heading | .paragraph | .code | .blockquote | .list | .listItem | .thematicBreak | .table =>
      true
  | _ => false

end Kind

end KeyedMarkup.Doc
