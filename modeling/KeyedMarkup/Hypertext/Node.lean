import KeyedMarkup.Doc.Kind
import KeyedMarkup.Property

/-!
# Hypertext trees

A hypertext tree holds elements with attributes, texts, raw HTML and roots. Only the outermost
element made from a document node carries the kind of that node.
-/

namespace KeyedMarkup.Hypertext

mutual

inductive Node where
  | root (children : List Node)
  | element (e : Element)
  | text (value : String)
  | raw (value : String)

structure Element where
  tag : String
  properties : Properties
  children : List Node
  kind : Option Doc.Kind

end

instance : Inhabited Node := ⟨.root []⟩

namespace Node

def children : Node → List Node
  | .root cs => cs
  | .element e => e.children
  | .text _ | .raw _ => []

/-- The kind of document node that a hypertext node stands for, if it is known. -/
def kind? : Node → Option Doc.Kind
  | .root _ => some .root
  | .element e => e.kind
  | .text _ => some .text
  | .raw _ => some .html

/-- A root is its own; any other node becomes the only child of a new root. -/
def rootChildren : Node → List Node
  | .root cs => cs
  | n => [n]

end Node

end KeyedMarkup.Hypertext
