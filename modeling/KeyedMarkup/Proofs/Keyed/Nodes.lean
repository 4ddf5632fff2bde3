import KeyedMarkup.Keyed.Element

/-!
# The nodes of a keyed tree

A property of a whole rendered tree is said of every node in the list of its nodes. One such
property is that all tags and all attribute names are of a given kind and no raw HTML is left.
-/

namespace KeyedMarkup.Keyed

mutual

/-- A node and all nodes below it, in document order. -/
def Node.nodes : Node → List Node
  | .element ⟨tag, key, properties, children⟩ =>
      .element ⟨tag, key, properties, children⟩ :: nodesOfAll children
  | .text value => [.text value]
  | .raw value => [.raw value]

def nodesOfAll : List Node → List Node
  | [] => []
  | n :: rest => n.nodes ++ nodesOfAll rest

end

def Element.nodes (e : Element) : List Node := (Node.element e).nodes

theorem nodes_element (e : Element) : e.nodes = .element e :: nodesOfAll e.children := by
  cases e
  rfl

theorem self_mem_nodes (n : Node) : n ∈ n.nodes := by
  cases n with
  | element e =>
      rw [← Element.nodes, nodes_element]
      exact List.mem_cons_self
  | text value => exact List.mem_cons_self
  | raw value => exact List.mem_cons_self

/-- Whether a node is no raw HTML and the names that it brings along are of the given kinds. -/
def Node.Uses (tags attributes : String → Prop) : Node → Prop
  | .element e => tags e.tag ∧ ∀ p ∈ e.properties.entries, attributes p.1
  | .text _ => True
  | .raw _ => False

instance (tags attributes : String → Prop) [DecidablePred tags] [DecidablePred attributes] :
    DecidablePred (Node.Uses tags attributes)
  | .element e => inferInstanceAs (Decidable (tags e.tag ∧ ∀ p ∈ e.properties.entries, _))
  | .text _ => inferInstanceAs (Decidable True)
  | .raw _ => inferInstanceAs (Decidable False)

end KeyedMarkup.Keyed
