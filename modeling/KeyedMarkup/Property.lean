import KeyedMarkup.Dict
import KeyedMarkup.Number.Binary64

/-!
# Properties

A property is a flag, a number, a text or a list of tokens such as class names. The same four
kinds of value describe a node of a document, an attribute of a hypertext element and an
attribute of a rendered element.
-/

namespace KeyedMarkup

inductive Property where
  | flag (set : Bool)
  | number (value : Binary64)
  | text (value : String)
  | tokens (values : List String)
deriving DecidableEq, Inhabited

namespace Property

def flag? : Property → Option Bool
  | .flag b => some b
  | _ => none

def number? : Property → Option Binary64
  | .number x => some x
  | _ => none

def text? : Property → Option String
  | .text s => some s
  | _ => none

def tokens? : Property → Option (List String)
  | .tokens ts => some ts
  | _ => none

end Property

/-- Properties by name. -/
abbrev Properties := Dict Property

namespace Dict

def flag? (ps : Properties) (name : String) : Option Bool := (ps.get? name).bind Property.flag?

def number? (ps : Properties) (name : String) : Option Binary64 :=
  (ps.get? name).bind Property.number?

def text? (ps : Properties) (name : String) : Option String := (ps.get? name).bind Property.text?

end Dict

end KeyedMarkup
