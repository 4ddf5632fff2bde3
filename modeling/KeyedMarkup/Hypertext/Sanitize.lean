import KeyedMarkup.Hypertext.Node
import KeyedMarkup.Hypertext.Schema

/-!
# Sanitizing hypertext

Everything that a schema does not allow is removed. Raw HTML goes, an element to be stripped
goes with its content, any other element that is not allowed is replaced by its content, and the
attributes that stay have passed the check of their addresses and carry the prefix where one is
asked for.
-/

namespace KeyedMarkup.Hypertext

namespace Schema

/-- Whether every address in the value of an attribute passes. -/
def allowsValue (s : Schema) (name : String) : Property → Bool
  | .text url => s.allowsUrl name url
  | .tokens urls => urls.all (s.allowsUrl name)
  | .flag _ | .number _ => true

/-- The value of an attribute with the prefix, where the schema asks for it. -/
def clobberValue (s : Schema) (name : String) (value : Property) : Property :=
  if s.clobber.contains name then
    match value with
    | .text v => .text (s.clobbered v)
    | .tokens vs => .tokens (vs.map s.clobbered)
    | .flag _ | .number _ => value
  else value

/-- The attributes of an element that stay. -/
def cleanProperties (s : Schema) (tag : String) (ps : Properties) : Properties :=
  (ps.filter fun name value => s.allowsAttribute tag name && s.allowsValue name value).mapValues
    s.clobberValue

end Schema

namespace Node

variable (s : Schema)

mutual

/-- What remains of a node: nothing, the node, or the remains of its content. -/
def clean : Node → List Node
  | .root children => cleanAll children
  | .text value => [.text value]
  | .raw _ => []
  | .element ⟨tag, properties, children, kind⟩ =>
      if s.strip.contains tag then []
      else if s.tags.contains tag then
        [.element ⟨tag, s.cleanProperties tag properties, cleanAll children, kind⟩]
      else cleanAll children

def cleanAll : List Node → List Node
  | [] => []
  | n :: rest => clean n ++ cleanAll rest

end

/-- The sanitized tree, which is always a root. -/
def sanitize (n : Node) : Node := .root (clean s n)

end Node

end KeyedMarkup.Hypertext
