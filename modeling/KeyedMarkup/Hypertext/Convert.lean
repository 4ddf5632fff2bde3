import KeyedMarkup.Doc.Node
import KeyedMarkup.Hypertext.Node

/-!
# From documents to hypertext

Every document node becomes an element, a text, raw HTML or nothing, and its block children are
set on lines of their own. Properties that the conversion itself reads are not copied to the
element; all others are kept. A node of unknown kind becomes an element of that name, or a text
if it is a leaf.
-/

namespace KeyedMarkup.Hypertext

/-- Whether raw HTML of the document is kept rather than dropped. -/
structure ConvertOptions where
  allowDangerousHtml : Bool := false
deriving Inhabited

namespace Convert

private def newline : Node := .text "\n"

private def intersperse : List Node → List Node
  | [] => []
  | [n] => [n]
  | n :: rest => n :: newline :: intersperse rest

/-- Nodes with a line break between them. -/
def lines (ns : List Node) : List Node := intersperse ns

/-- Nodes with a line break before each of them and after the last; no nodes give one break. -/
def looseLines : List Node → List Node
  | [] => [newline]
  | ns => newline :: (intersperse ns ++ [newline])

/-- The element of a node, with the properties that are not listed as consumed. -/
def elementOf (n : Doc.Node) (tag : String) (consumed : List String) (children : List Node) :
    Element :=
  ⟨tag, n.properties.filter fun name _ => !consumed.contains name, children, some n.kind⟩

/-- Copies a property of the node to the attribute `target` of the element. -/
def copyTo (n : Doc.Node) (name target : String) (e : Element) : Element :=
  match n.property? name with
  | some value => { e with properties := e.properties.insert target value }
  | none => e

/-- The level of a heading from 1 to 6; one without a number is of the first level. -/
def headingLevel (n : Doc.Node) : Nat :=
  match n.properties.number? "depth" with
  | some x => x.clampWhole 1 6
  | none => 1

private def inlineElement (tag : String) (properties : List (String × Property))
    (children : List Node) : Node :=
  .element ⟨tag, .ofList properties, children, none⟩

/-- A code block is a `code` element in a `pre` element; its text ends in a line break. -/
def codeBlock (n : Doc.Node) : Element :=
  let language := match n.properties.text? "lang" with
    | some lang => [("class", Property.tokens ["language-" ++ lang])]
    | none => []
  let content := if n.ownText.isEmpty then [] else [Node.text (n.ownText ++ "\n")]
  elementOf n "pre" ["lang", "meta"] [inlineElement "code" language content]

/-- A list is ordered if it says so; the number of its first item is written unless it is one. -/
def listElement (n : Doc.Node) (items : List Node) : Element :=
  let ordered := (n.properties.flag? "ordered").getD false
  let e := elementOf n (if ordered then "ol" else "ul") ["ordered", "start", "spread"]
    (looseLines items)
  match n.properties.number? "start" with
  | some x =>
      if ordered && x.awayFromOne then
        { e with properties := e.properties.insert "start" (.number x) }
      else e
  | none => e

/-- The check box of a task, followed by a space. -/
def checkbox (n : Doc.Node) : List Node :=
  match n.properties.flag? "checked" with
  | none => []
  | some checked =>
      [inlineElement "input"
        ([("type", .text "checkbox"), ("disabled", .flag true)] ++
          if checked then [("checked", .flag true)] else []) [],
       .text " "]

/-- A list item is loose if it says so, or else if it holds a paragraph. -/
def isLoose (n : Doc.Node) : Bool :=
  (n.properties.flag? "spread").getD (n.children.any (·.kind == .paragraph))

def isHeader (n : Doc.Node) : Bool := (n.properties.flag? "header").getD false

private def rowGroup (tag : String) (rows : List Node) : Node :=
  inlineElement tag [] (looseLines rows)

/-- The first row, if it is a header, is the head of the table and the others are its body. -/
def tableSections (head : Option Node) (body : List Node) : List Node :=
  (head.map fun row => rowGroup "thead" [row]).toList ++
    if body.isEmpty then [] else [rowGroup "tbody" body]

def rowElement (n : Doc.Node) (cells : List Node) : Node :=
  .element (elementOf n "tr" ["header"] (looseLines cells))

def cellElement (n : Doc.Node) (header : Bool) (children : List Node) : Node :=
  .element (elementOf n (if header || isHeader n then "th" else "td") ["header"] children)

variable (options : ConvertOptions)

mutual

/-- The hypertext of one node. -/
def one : Doc.Node → List Node
  | ⟨kind, properties, value, children⟩ =>
      let n : Doc.Node := ⟨kind, properties, value, children⟩
      match kind with
      | .root => lines (all children)
      | .text => [.text n.ownText]
      | .html => if options.allowDangerousHtml then [.raw n.ownText] else []
      | .lineBreak => [.element (elementOf n "br" [] []), newline]
      | .heading =>
          [.element (elementOf n ("h" ++ toString (headingLevel n)) ["depth"] (all children))]
      | .paragraph => [.element (elementOf n "p" [] (all children))]
      | .emphasis => [.element (elementOf n "em" [] (all children))]
      | .strong => [.element (elementOf n "strong" [] (all children))]
      | .delete => [.element (elementOf n "del" [] (all children))]
      | .inlineCode => [.element (elementOf n "code" [] [.text n.ownText])]
      | .code => [.element (codeBlock n)]
      | .link =>
          [.element (copyTo n "title" "title" (copyTo n "url" "href"
            (elementOf n "a" ["url", "title"] (all children))))]
      | .image =>
          [.element (copyTo n "title" "title" (copyTo n "alt" "alt" (copyTo n "url" "src"
            (elementOf n "img" ["url", "alt", "title"] []))))]
      | .blockquote => [.element (elementOf n "blockquote" [] (looseLines (all children)))]
      | .list => [.element (listElement n (all children))]
      | .listItem =>
          let content := if isLoose n then looseLines (all children) else tight none children
          [.element (elementOf n "li" ["checked", "spread"] (checkbox n ++ content))]
      | .thematicBreak => [.element (elementOf n "hr" [] [])]
      | .table => [.element (elementOf n "table" [] (looseLines (sections children)))]
      | .tableRow => [rowElement n (cells false children)]
      | .tableCell => [cellElement n false (all children)]
      | .other name =>
          match children, value with
          | [], some s => [.text s]
          | _, _ => [.element (elementOf n name [] (all children))]

def all : List Doc.Node → List Node
  | [] => []
  | n :: rest => one n ++ all rest

/-- The content of a tight item: a line break stands only where a block meets a neighbour. -/
def tight (previous : Option Doc.Kind) : List Doc.Node → List Node
  | [] => []
  | n :: rest =>
      let gap := match previous with
        | some k => if k.isBlock || n.kind.isBlock then [newline] else []
        | none => []
      gap ++ one n ++ tight (some n.kind) rest

def sections : List Doc.Node → List Node
  | [] => []
  | n :: rest =>
      if isHeader n then tableSections (some (row true n)) (rows rest)
      else tableSections none (row false n :: rows rest)

/-- A child of a table is a row, whatever its kind. -/
def row (header : Bool) : Doc.Node → Node
  | ⟨kind, properties, value, children⟩ =>
      rowElement ⟨kind, properties, value, children⟩ (cells header children)

def rows : List Doc.Node → List Node
  | [] => []
  | n :: rest => row false n :: rows rest

/-- A child of a row is a cell, whatever its kind. -/
def cell (header : Bool) : Doc.Node → Node
  | ⟨kind, properties, value, children⟩ =>
      cellElement ⟨kind, properties, value, children⟩ header (all children)

def cells (header : Bool) : List Doc.Node → List Node
  | [] => []
  | n :: rest => cell header n :: cells header rest

end

end Convert

/-- The hypertext tree of a document. A node other than a root is the content of a new root. -/
def ofDoc (options : ConvertOptions) (n : Doc.Node) : Node := .root (Convert.one options n)

end KeyedMarkup.Hypertext
