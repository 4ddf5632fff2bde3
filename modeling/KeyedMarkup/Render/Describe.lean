import KeyedMarkup.Number.Text
import KeyedMarkup.Render.Options
import KeyedMarkup.Text.Printable

/-!
# Descriptions

A value is described on one line: a record by its name and its fields in curly braces, a variant
by its name and its content in parentheses, a list in brackets, and a text in quotation marks. A
record that also has fields which cannot be described ends in two points.
-/

namespace KeyedMarkup.Render.Describe

private def hexText (n : Nat) : String := String.ofList (Nat.toDigits 16 n)

def quotedChar : Char → String
  | '"' => "\\\""
  | '\\' => "\\\\"
  | '\n' => "\\n"
  | '\r' => "\\r"
  | '\t' => "\\t"
  | c =>
      if c.toNat = 0 then "\\0"
      else if isPrintable c then c.toString
      else "\\u\x7b" ++ hexText c.toNat ++ "\x7d"

/-- A text in quotation marks, with what cannot be shown as it is written out. -/
def quoted (s : String) : String := "\"" ++ "".intercalate (s.toList.map quotedChar) ++ "\""

private def commas (items : List String) : String := ", ".intercalate items

private def listed (items : List String) : String := "[" ++ commas items ++ "]"

private def braced (items : List String) : String := "\x7b" ++ commas items ++ "\x7d"

private def variant (name content : String) : String := name ++ "(" ++ content ++ ")"

private def field (name content : String) : String := name ++ ": " ++ content

/-- A record with its fields; `isOpen` if there are others that are not described. -/
private def record (name : String) (fields : List String) (isOpen : Bool) : String :=
  name ++ " \x7b " ++ commas (fields ++ if isOpen then [".."] else []) ++ " \x7d"

private def optional {α : Type} (describe : α → String) : Option α → String
  | some a => variant "Some" (describe a)
  | none => "None"

private def flagName (b : Bool) : String := if b then "true" else "false"

/-- The name of a kind with a capital. -/
def kind : Doc.Kind → String
  | .other name => variant "Other" (quoted name)
  | k => String.ofList (k.name.toList.take 1 |>.map Char.toUpper) ++
      String.ofList (k.name.toList.drop 1)

def property : Property → String
  | .flag b => variant "Bool" (flagName b)
  | .number x => variant "Number" (x.text .described)
  | .text s => variant "String" (quoted s)
  | .tokens ts => variant "List" (listed (ts.map quoted))

def properties (ps : Properties) : String :=
  braced (ps.entries.map fun e => quoted e.1 ++ ": " ++ property e.2)

mutual

def node : Keyed.Node → String
  | .element e => variant "Element" (element e)
  | .text s => variant "Text" (quoted s)
  | .raw s => variant "Raw" (quoted s)

def element : Keyed.Element → String
  | ⟨tag, key, props, children⟩ =>
      record "RenderedElement"
        [field "tag" (quoted tag), field "key" (optional quoted key),
          field "props" (properties props), field "children" (listed (nodes children))] false

def nodes : List Keyed.Node → List String
  | [] => []
  | n :: rest => node n :: nodes rest

end

/-- What a component is given, the factory apart. -/
def input (i : Input) : String :=
  record "ComponentProps"
    [field "tag" (optional quoted i.tag), field "kind" (optional kind i.kind),
      field "key" (quoted i.key), field "properties" (properties i.properties),
      field "children" (listed (nodes i.children))] true

def target : Target → String
  | .tag name => variant "Tag" (quoted name)
  | .kind k => variant "Kind" (kind k)

/-- How a node is rendered, the component itself apart. -/
def resolution {γ : Type} : Resolution γ → String
  | .override t _ => variant "Override" (target t)
  | .builtIn .container => variant "BuiltIn" "Container"
  | .builtIn .element => variant "BuiltIn" "Element"
  | .builtIn .text => variant "BuiltIn" "Text"
  | .builtIn .raw => variant "BuiltIn" "Raw"
  | .fallback => "Fallback"

def sanitizing : Sanitizing → String
  | .disabled => "Disabled"
  | .enabled => "Enabled"
  | .schema _ => "Schema"

/-- The render options, the factory apart. -/
def options (o : Options) : String :=
  record "RenderOptions"
    [field "components" (braced (o.components.entries.map fun e => target e.1)),
      field "sanitize" (sanitizing o.sanitizing),
      field "hypertext" (record "HypertextOptions"
        [field "allow_dangerous_html" (flagName o.convert.allowDangerousHtml)] false),
      field "parse" (record "ParseOptions" [field "gfm" (flagName o.gfm)] false),
      field "key_prefix" (quoted o.keyPrefix), field "max_depth" (toString o.maxDepth)] true

end KeyedMarkup.Render.Describe
