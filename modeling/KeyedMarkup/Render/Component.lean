import KeyedMarkup.Hypertext.Node
import KeyedMarkup.Keyed.Factory

/-!
# Components

A component replaces the built-in rendering of the nodes with a given tag, or of those with a
given document kind. The tag wins: a registry is asked first for the tag of a node and then for
its kind, and only then does the node get its built-in rendering.
-/

namespace KeyedMarkup.Render

/-- What a component is registered for. -/
inductive Target where
  | tag (name : String)
  | kind (k : Doc.Kind)
deriving DecidableEq

/-- The target as it is named in messages. -/
def Target.text : Target → String
  | .tag name => "<" ++ name ++ ">"
  | .kind k => k.name

/-- Values by target, each target at most once. -/
structure Registry (γ : Type) where
  entries : List (Target × γ)
  distinct : (entries.map (·.1)).Nodup

/-- The element that holds a whole rendered document. -/
def containerTag : String := "div"

/-- The tag by which a component can be registered for a node; texts and raw HTML have none. -/
def tagOf : Hypertext.Node → Option String
  | .root _ => some containerTag
  | .element e => some e.tag
  | .text _ | .raw _ => none

inductive BuiltIn where
  | container
  | element
  | text
  | raw
deriving DecidableEq

/-- How a node is rendered. `fallback` is for elements of unknown kind. -/
inductive Resolution (γ : Type) where
  | override (target : Target) (value : γ)
  | builtIn (b : BuiltIn)
  | fallback

namespace Registry

variable {γ : Type}

def empty : Registry γ := ⟨[], .nil⟩

instance : Inhabited (Registry γ) := ⟨empty⟩

/-- Registers a value for a target, in place of an earlier one. -/
def insert (r : Registry γ) (target : Target) (value : γ) : Registry γ where
  entries := (target, value) :: r.entries.filter fun e => e.1 ≠ target
  distinct := by
    rw [List.map_cons, List.nodup_cons]
    refine ⟨?_, r.distinct.sublist (List.filter_sublist.map _)⟩
    simp

/-- Registers values in order. -/
def insertAll (r : Registry γ) (es : List (Target × γ)) : Registry γ :=
  es.foldl (fun r e => r.insert e.1 e.2) r

def ofList (es : List (Target × γ)) : Registry γ := empty.insertAll es

def size (r : Registry γ) : Nat := r.entries.length

def isEmpty (r : Registry γ) : Bool := r.entries.isEmpty

def get? (r : Registry γ) (target : Target) : Option γ := r.entries.lookup target

/-- The targets of a node in the order in which they are looked up. -/
def targets (n : Hypertext.Node) : List Target :=
  ((tagOf n).map Target.tag).toList ++ (n.kind?.map Target.kind).toList

/-- The built-in rendering of a node. -/
def builtIn : Hypertext.Node → Resolution γ
  | .root _ => .builtIn .container
  | .text _ => .builtIn .text
  | .raw _ => .builtIn .raw
  | .element e =>
      match e.kind with
      | some (.other _) => .fallback
      | _ => .builtIn .element

/-- The first target of the node that is registered. An empty registry is not searched. -/
def found? (r : Registry γ) (n : Hypertext.Node) : Option (Resolution γ) :=
  if r.isEmpty then none
  else (targets n).findSome? fun t => (r.get? t).map (Resolution.override t)

/-- What is registered for a node, or the built-in rendering. -/
def resolve (r : Registry γ) (n : Hypertext.Node) : Resolution γ :=
  match r.found? n with
  | some found => found
  | none => builtIn n

end Registry

/-- What a component is given. Texts and raw HTML have no tag, and themselves as only child. -/
structure Input where
  tag : Option String
  kind : Option Doc.Kind
  key : String
  properties : Properties
  children : List Keyed.Node
  factory : Keyed.Factory
deriving Inhabited

/-- The answer of a component, with its uses of the factory in order. -/
structure Reply where
  outcome : Except String Keyed.Node
  creations : List Keyed.Creation

abbrev Component := Input → Reply

namespace Reply

def node (n : Keyed.Node) : Reply := ⟨.ok n, []⟩

def failure (cause : String) : Reply := ⟨.error cause, []⟩

end Reply

namespace Input

/-- The element of a given tag with the key, properties and children of the input. -/
def element (i : Input) (tag : String) : Reply :=
  let props : Keyed.Props := ⟨some i.key, i.properties⟩
  ⟨.ok (.element (i.factory.create tag props i.children)), [⟨tag, props, i.children⟩]⟩

end Input

end KeyedMarkup.Render
