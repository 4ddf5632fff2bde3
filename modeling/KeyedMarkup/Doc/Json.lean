import KeyedMarkup.Doc.Node
import KeyedMarkup.Json.Printer

/-!
# Documents as JSON

A node is an object with its kind as `type`, then `properties`, `value` and `children`, each left
out if there is nothing to say. A node is read from such an object, whose other fields are
ignored, or from an array of at most these four in this order. Arrays and objects nested deeper
than 127 are refused, but not within what is ignored.
-/

namespace KeyedMarkup

namespace Property

def json : Property → Json.Value
  | .flag b => .flag b
  | .number x => .number x
  | .text s => .text s
  | .tokens ts => .array (ts.map .text)

end Property

/-- The properties as an object. -/
def Dict.json (ps : Properties) : Json.Value :=
  .object (ps.entries.map fun e => (e.1, e.2.json))

namespace Doc.Node

mutual

/-- A node as a JSON value. -/
def json : Node → Json.Value
  | ⟨kind, properties, value, children⟩ =>
      .object ([("type", .text kind.name)] ++
        (if properties.isEmpty then [] else [("properties", Dict.json properties)]) ++
        (value.map fun s => ("value", Json.Value.text s)).toList ++
        (if children.isEmpty then [] else [("children", .array (jsonAll children))]))

def jsonAll : List Node → List Json.Value
  | [] => []
  | n :: rest => n.json :: jsonAll rest

end

/-- The compact JSON text of a node. -/
def jsonText (n : Node) : String := n.json.compact

/-- The deepest nesting of arrays and objects that is read. -/
def nestingLimit : Nat := 127

private def token? : Json.Value → Option String
  | .text s => some s
  | _ => none

/-- A property from a value that may nest `room` levels. -/
def propertyOf? (room : Nat) : Json.Value → Option Property
  | .flag b => some (.flag b)
  | .number x => some (.number x)
  | .text s => some (.text s)
  | .array items => if room = 0 then none else (items.mapM token?).map .tokens
  | _ => none

/-- The properties from an object; the last value of a name stays. -/
def propertiesOf? (room : Nat) : Json.Value → Option Properties
  | .object fields =>
      if room = 0 then none
      else (fields.mapM fun f => (propertyOf? (room - 1) f.2).map fun p => (f.1, p)).map .ofList
  | _ => none

/-- The text of a node from a text or `null`. -/
def valueOf? : Json.Value → Option (Option String)
  | .text s => some (some s)
  | .null => some none
  | _ => none

/-- The parts of a node that were found. -/
structure Parts where
  kind : Option Kind := none
  properties : Option Properties := none
  value : Option (Option String) := none
  children : Option (List Node) := none

namespace Parts

/-- Each part may be given once. -/
def setKind (p : Parts) (v : Json.Value) : Option Parts :=
  match p.kind, v with
  | none, .text s => some { p with kind := some (.ofName s) }
  | _, _ => none

def setProperties (p : Parts) (room : Nat) (v : Json.Value) : Option Parts :=
  match p.properties, propertiesOf? room v with
  | none, some ps => some { p with properties := some ps }
  | _, _ => none

def setValue (p : Parts) (v : Json.Value) : Option Parts :=
  match p.value, valueOf? v with
  | none, some s => some { p with value := some s }
  | _, _ => none

def setChildren (p : Parts) (children : List Node) : Option Parts :=
  match p.children with
  | none => some { p with children := some children }
  | some _ => none

/-- The node, if its kind was given. -/
def node? (p : Parts) : Option Node :=
  p.kind.map fun kind =>
    ⟨kind, p.properties.getD .empty, p.value.getD none, p.children.getD []⟩

end Parts

mutual

/-- A node from a value that may nest `room` levels. -/
def ofJson? (room : Nat) : Json.Value → Option Node
  | .object fields => if room = 0 then none else (ofFields? (room - 1) {} fields).bind Parts.node?
  | .array items => if room = 0 then none else (ofItems? (room - 1) items).bind Parts.node?
  | _ => none

/-- The parts among the fields of an object. -/
def ofFields? (room : Nat) (p : Parts) : List (String × Json.Value) → Option Parts
  | [] => some p
  | (name, v) :: rest =>
      match (match name with
        | "type" => p.setKind v
        | "properties" => p.setProperties room v
        | "value" => p.setValue v
        | "children" => (childrenOf? room v).bind p.setChildren
        | _ => some p) with
      | some p => ofFields? room p rest
      | none => none

/-- The parts in order, of which only the first is needed. -/
def ofItems? (room : Nat) : List Json.Value → Option Parts
  | [kind] => ({} : Parts).setKind kind
  | [kind, properties] => (Parts.setKind {} kind).bind (·.setProperties room properties)
  | [kind, properties, value] =>
      ((Parts.setKind {} kind).bind (·.setProperties room properties)).bind (·.setValue value)
  | [kind, properties, value, children] =>
      (((Parts.setKind {} kind).bind (·.setProperties room properties)).bind
        (·.setValue value)).bind fun p => (childrenOf? room children).bind p.setChildren
  | _ => none

/-- The children from an array of nodes. -/
def childrenOf? (room : Nat) : Json.Value → Option (List Node)
  | .array items => if room = 0 then none else ofAll? (room - 1) items
  | _ => none

def ofAll? (room : Nat) : List Json.Value → Option (List Node)
  | [] => some []
  | v :: rest =>
      match ofJson? room v, ofAll? room rest with
      | some n, some ns => some (n :: ns)
      | _, _ => none

end

/-- The document of a JSON text, if it is one. -/
def ofJsonText? (text : String) : Option Node :=
  (Json.Value.ofText? text).bind (ofJson? nestingLimit)

end Doc.Node

end KeyedMarkup
