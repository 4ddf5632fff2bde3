import KeyedMarkup.Render.Describe

/-!
# Ready-made components

A recipe is a component given as data. The recipes rename an element, change its properties or
the order of its children, wrap it, replace it by a child, by a text or by raw HTML, describe it,
or fail. A recipe that keeps the tag gives `span` to what has none.
-/

namespace KeyedMarkup.Render

inductive Recipe where
  | rename (tag : String)
  | set (properties : List (String × Property))
  | wrap (tag : String)
  | child (index : Nat)
  | reverse
  | text (value : String)
  | raw (value : String)
  | fail (cause : String)
  | failAt (key : String)
  | describe
deriving Inhabited

namespace Input

def ownTag (i : Input) : String := i.tag.getD "span"

/-- The element of the input, without a key, in an element that has the key only. -/
def wrapped (i : Input) (tag : String) : Reply :=
  let props : Keyed.Props := ⟨none, i.properties⟩
  let content := [Keyed.Node.element (i.factory.create i.ownTag props i.children)]
  let outer : Keyed.Props := ⟨some i.key, .empty⟩
  ⟨.ok (.element (i.factory.create tag outer content)),
    [⟨i.ownTag, props, i.children⟩, ⟨tag, outer, content⟩]⟩

end Input

/-- The component that follows a recipe. -/
def Recipe.component : Recipe → Component
  | .rename tag, i => i.element tag
  | .set properties, i =>
      { i with properties := i.properties.insertAll properties }.element i.ownTag
  | .wrap tag, i => i.wrapped tag
  | .child index, i => .node (i.children[index]?.getD (.text "none"))
  | .reverse, i => { i with children := i.children.reverse }.element i.ownTag
  | .text value, _ => .node (.text value)
  | .raw value, _ => .node (.raw value)
  | .fail cause, _ => .failure cause
  | .failAt key, i => if i.key = key then .failure "matched" else i.element "ok"
  | .describe, i => .node (.text (Describe.input i))

end KeyedMarkup.Render
