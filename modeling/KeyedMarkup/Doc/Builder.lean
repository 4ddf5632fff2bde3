import KeyedMarkup.Doc.Event

/-!
# Trees from events

A builder holds the open nodes, innermost first, and the alignments of the table that was opened
last. There is always an innermost node, at least the root, so any sequence of events yields a
tree: what stops too often is ignored, and what is left open is closed at the end.
-/

namespace KeyedMarkup.Doc

/-- A node whose children are still being added; the latest child comes first. -/
structure OpenNode where
  kind : Kind
  properties : Properties
  value : Option String
  latest : List Node
deriving Inhabited

namespace OpenNode

def root : OpenNode := ⟨.root, .empty, none, []⟩

def node (o : OpenNode) : Node := ⟨o.kind, o.properties, o.value, o.latest.reverse⟩

def add (o : OpenNode) (n : Node) : OpenNode := { o with latest := n :: o.latest }

/-- A code block takes a text into its own; elsewhere it joins a text that was just added. -/
def addText (o : OpenNode) (s : String) : OpenNode :=
  if o.kind = .code then { o with value := o.value.map (· ++ s) }
  else
    match o.latest with
    | ⟨.text, ps, some v, cs⟩ :: rest => { o with latest := ⟨.text, ps, some (v ++ s), cs⟩ :: rest }
    | _ => o.add (.leaf .text s)

/-- An HTML block takes raw HTML into its own text; elsewhere it is a leaf. -/
def addHtml (o : OpenNode) (s : String) : OpenNode :=
  if o.kind = .html then { o with value := o.value.map (· ++ s) }
  else o.add (.leaf .html s)

private def dropFinalNewline (s : String) : String :=
  match s.toList.reverse with
  | '\n' :: cs => String.ofList cs.reverse
  | _ => s

/-- The finished node. The text of a code or HTML block loses one final newline, and an image
keeps the text of its children as its description only. -/
def close (o : OpenNode) : Node :=
  match o.kind with
  | .code | .html => { o.node with value := o.value.map dropFinalNewline }
  | .image =>
      Node.withProperty { o.node with children := [] } "alt" (.text o.node.textContent)
  | _ => o.node

end OpenNode

structure Builder where
  top : OpenNode
  below : List OpenNode
  columns : List (Option Align)
deriving Inhabited

namespace Builder

def start : Builder := ⟨.root, [], []⟩

def add (b : Builder) (n : Node) : Builder := { b with top := b.top.add n }

/-- A table cell stands in the column that the cells before it leave. -/
def cellProperties (b : Builder) : Properties :=
  match (b.columns[b.top.latest.length]?).join with
  | some align => .ofList [("align", .text align.name)]
  | none => .empty

def openTag (b : Builder) (tag : Tag) : Builder :=
  let properties := match tag with
    | .tableCell => b.cellProperties
    | _ => tag.properties
  let columns := match tag with
    | .table columns => columns
    | _ => b.columns
  ⟨⟨tag.kind, properties, tag.value, []⟩, b.top :: b.below, columns⟩

/-- Finishes the innermost node and adds it to the one around it; the root stays open. -/
def stop (b : Builder) : Builder :=
  match b.below with
  | [] => b
  | outer :: below =>
      let columns := if b.top.kind = .table then [] else b.columns
      ⟨outer.add b.top.close, below, columns⟩

/-- Sets the check mark of the innermost list item, if there is one. -/
def mark (checked : Bool) : List OpenNode → List OpenNode
  | [] => []
  | o :: rest =>
      if o.kind = .listItem then
        { o with properties := o.properties.insert "checked" (.flag checked) } :: rest
      else o :: mark checked rest

/-- A task marker belongs to the innermost open list item. -/
def task (b : Builder) (checked : Bool) : Builder :=
  match mark checked (b.top :: b.below) with
  | top :: below => { b with top := top, below := below }
  | [] => b

def step (b : Builder) : Event → Builder
  | .start tag => b.openTag tag
  | .stop => b.stop
  | .text s => { b with top := b.top.addText s }
  | .code s => b.add (.leaf .inlineCode s)
  | .html s | .inlineHtml s => { b with top := b.top.addHtml s }
  | .inlineMath s => b.add (.leaf (.other "inlineMath") s)
  | .displayMath s => b.add (.leaf (.other "math") s)
  | .footnoteReference label =>
      b.add ((Node.parent (.other "footnoteReference") []).withProperty "label" (.text label))
  | .softBreak => { b with top := b.top.addText "\n" }
  | .hardBreak => b.add (.parent .lineBreak [])
  | .rule => b.add (.parent .thematicBreak [])
  | .task checked => b.task checked

def run (b : Builder) (events : List Event) : Builder := events.foldl step b

/-- Closes a node and all that are open around it. -/
def closeAll (inner : OpenNode) : List OpenNode → Node
  | [] => inner.node
  | outer :: below => closeAll (outer.add inner.close) below

/-- The tree, with everything that is still open closed. -/
def finish (b : Builder) : Node := closeAll b.top b.below

end Builder

/-- The tree of a sequence of events. -/
def Node.ofEvents (events : List Event) : Node := (Builder.start.run events).finish

end KeyedMarkup.Doc
