import KeyedMarkup.Property

/-!
# Keyed elements

The rendered tree: elements with a tag, an optional key, attributes and children, and between
them texts, which are escaped when written, and raw HTML, which is not.
-/

namespace KeyedMarkup.Keyed

mutual

inductive Node where
  | element (e : Element)
  | text (value : String)
  | raw (value : String)

structure Element where
  tag : String
  key : Option String
  properties : Properties
  children : List Node

end

instance : Inhabited Node := ⟨.text ""⟩

instance : Inhabited Element := ⟨⟨"", none, .empty, []⟩⟩

mutual

def Node.keys : Node → List String
  | .element e => e.keys
  | .text _ | .raw _ => []

/-- The keys of an element and of all elements below it, in document order. -/
def Element.keys : Element → List String
  | ⟨_, key, _, children⟩ => key.toList ++ keysOfAll children

def keysOfAll : List Node → List String
  | [] => []
  | n :: rest => n.keys ++ keysOfAll rest

end

mutual

def Node.textContent : Node → String
  | .element e => e.textContent
  | .text s => s
  | .raw _ => ""

/-- The texts below an element, in document order; raw HTML does not count. -/
def Element.textContent : Element → String
  | ⟨_, _, _, children⟩ => textOfAll children

def textOfAll : List Node → String
  | [] => ""
  | n :: rest => n.textContent ++ textOfAll rest

end

/-- The children that are elements. -/
def Element.childElements (e : Element) : List Element :=
  e.children.filterMap fun
    | .element c => some c
    | .text _ | .raw _ => none

end KeyedMarkup.Keyed
