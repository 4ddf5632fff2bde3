import KeyedMarkup.Render.Error
import KeyedMarkup.Render.Options
import KeyedMarkup.Render.Trail

/-!
# Rendering

A tree is rendered depth first: the children of a node in document order, then the node itself,
with the key of its position. The first error ends the walk. Along the way it is noted which
components were called and what the factory was asked for, also when the walk ends in an error.
-/

namespace KeyedMarkup.Render

/-- One call of a component, noted before it answers. -/
structure Call where
  target : Target
  input : Input

/-- The position of a walk and what happened so far. -/
structure Walk where
  trail : Trail
  calls : Array Call
  creations : Array Keyed.Creation

abbrev Walked (α : Type) := Except Error α × Walk

namespace Walk

def start (keyPrefix : String) (limit : Nat) : Walk := ⟨.root keyPrefix limit, #[], #[]⟩

/-- Makes an element at the current position. -/
def create (w : Walk) (factory : Keyed.Factory) (tag : String) (properties : Properties)
    (children : List Keyed.Node) : Keyed.Element × Walk :=
  let props : Keyed.Props := ⟨some w.trail.key, properties⟩
  (factory.create tag props children,
    { w with creations := w.creations.push ⟨tag, props, children⟩ })

/-- Asks a component about a node at the current position. -/
def consult (w : Walk) (target : Target) (component : Component) (input : Input) :
    Walked Keyed.Node :=
  let reply := component input
  let w : Walk :=
    { w with calls := w.calls.push ⟨target, input⟩, creations := w.creations ++ reply.creations }
  match reply.outcome with
  | .ok n => (.ok n, w)
  | .error cause => (.error (.component target.text input.key cause), w)

/-- Renders a node whose children are rendered. Texts and raw HTML stand for themselves. -/
def place (w : Walk) (o : Options) (n : Hypertext.Node) (properties : Properties)
    (children : List Keyed.Node) : Walked Keyed.Node :=
  match o.components.resolve n with
  | .override target component =>
      w.consult target component
        ⟨tagOf n, n.kind?, w.trail.key, properties, children, o.factory⟩
  | .builtIn .text | .builtIn .raw => (.ok (children.headD (.text "")), w)
  | .builtIn .container | .builtIn .element | .fallback =>
      let (e, w) := w.create o.factory ((tagOf n).getD containerTag) properties children
      (.ok (.element e), w)

end Walk

variable (o : Options)

mutual

/-- Renders a node at the position of the walk. -/
def visit : Hypertext.Node → Walk → Walked Keyed.Node
  | .root children, w =>
      match visitAll 0 children w with
      | (.ok rendered, w) => w.place o (.root children) .empty rendered
      | (.error e, w) => (.error e, w)
  | .element ⟨tag, properties, children, kind⟩, w =>
      match visitAll 0 children w with
      | (.ok rendered, w) =>
          w.place o (.element ⟨tag, properties, children, kind⟩) properties rendered
      | (.error e, w) => (.error e, w)
  | .text value, w => w.place o (.text value) .empty [.text value]
  | .raw value, w => w.place o (.raw value) .empty [.raw value]

/-- Renders the children of a node from a given index on. -/
def visitAll (index : Nat) : List Hypertext.Node → Walk → Walked (List Keyed.Node)
  | [], w => (.ok [], w)
  | n :: rest, w =>
      match w.trail.descend? index with
      | none => (.error (.depthExceeded w.trail.limit), w)
      | some trail =>
          match visit n { w with trail } with
          | (.error e, w) => (.error e, { w with trail := w.trail.ascend })
          | (.ok rendered, w) =>
              match visitAll (index + 1) rest { w with trail := w.trail.ascend } with
              | (.ok others, w) => (.ok (rendered :: others), w)
              | (.error e, w) => (.error e, w)

end

/-- The result of a rendering with the calls and creations that led to it. -/
structure Rendering where
  outcome : Except Error Keyed.Element
  calls : List Call
  creations : List Keyed.Creation

/-- The rendering of a prepared tree, which is not sanitized. What is not a root becomes the only
child of one. A root that a component turns into a text or raw HTML is put into a container. -/
def renderHypertext (n : Hypertext.Node) : Rendering :=
  match visit o (.root n.rootChildren) (.start o.keyPrefix o.maxDepth) with
  | (.error e, w) => ⟨.error e, w.calls.toList, w.creations.toList⟩
  | (.ok (.element e), w) => ⟨.ok e, w.calls.toList, w.creations.toList⟩
  | (.ok other, w) =>
      let (e, w) := w.create o.factory containerTag .empty [other]
      ⟨.ok e, w.calls.toList, w.creations.toList⟩

/-- The number of levels below the root that a document has or gets. -/
def levels (tree : Doc.Node) : Nat :=
  match tree.kind with
  | .root => tree.depth
  | _ => tree.depth + 1

/-- The prepared hypertext of a document, unless the document is too deep. -/
def Options.prepare (tree : Doc.Node) : Except Error Hypertext.Node :=
  if o.maxDepth < levels tree then .error (.depthExceeded o.maxDepth)
  else .ok (Render.prepare tree o.sanitizing o.convert)

/-- The rendering of a document. -/
def render (tree : Doc.Node) : Rendering :=
  match o.prepare tree with
  | .ok hypertext => renderHypertext o hypertext
  | .error e => ⟨.error e, [], []⟩

end KeyedMarkup.Render
