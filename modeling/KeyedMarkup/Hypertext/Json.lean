import KeyedMarkup.Doc.Json
import KeyedMarkup.Hypertext.Node

/-!
# Hypertext as JSON

A node is an object with its `type` first. An element always has its tag, properties and children,
and its kind last if it is known.
-/

namespace KeyedMarkup.Hypertext.Node

mutual

/-- A node as a JSON value. -/
def json : Node → Json.Value
  | .root children => .object [("type", .text "root"), ("children", .array (jsonAll children))]
  | .element ⟨tag, properties, children, kind⟩ =>
      .object ([("type", .text "element"), ("tag", .text tag),
        ("properties", Dict.json properties), ("children", .array (jsonAll children))] ++
        (kind.map fun k => ("kind", Json.Value.text k.name)).toList)
  | .text value => .object [("type", .text "text"), ("value", .text value)]
  | .raw value => .object [("type", .text "raw"), ("value", .text value)]

def jsonAll : List Node → List Json.Value
  | [] => []
  | n :: rest => n.json :: jsonAll rest

end

end KeyedMarkup.Hypertext.Node
