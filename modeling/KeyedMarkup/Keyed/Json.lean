import KeyedMarkup.Doc.Json
import KeyedMarkup.Keyed.Element

/-!
# Rendered elements as JSON

An element is an object with its tag, its key if it has one, its properties and its children. A
child is an object whose only field says what it is.
-/

namespace KeyedMarkup.Keyed

mutual

def Node.json : Node → Json.Value
  | .element e => .object [("element", e.json)]
  | .text s => .object [("text", .text s)]
  | .raw s => .object [("raw", .text s)]

/-- An element as a JSON value. -/
def Element.json : Element → Json.Value
  | ⟨tag, key, properties, children⟩ =>
      .object ([("tag", .text tag)] ++ (key.map fun k => ("key", Json.Value.text k)).toList ++
        [("props", Dict.json properties), ("children", .array (jsonOfAll children))])

def jsonOfAll : List Node → List Json.Value
  | [] => []
  | n :: rest => n.json :: jsonOfAll rest

end

end KeyedMarkup.Keyed
