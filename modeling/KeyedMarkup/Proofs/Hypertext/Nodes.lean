import KeyedMarkup.Hypertext.Node

/-!
# The nodes of a hypertext tree

The nodes of a tree are listed in document order, parents first. A property of a whole tree is
said of every node in this list.
-/

namespace KeyedMarkup.Hypertext.Node

mutual

/-- A node and all nodes below it, in document order. -/
def nodes : Node → List Node
  | .root children => .root children :: nodesOfAll children
  | .element ⟨tag, properties, children, kind⟩ =>
      .element ⟨tag, properties, children, kind⟩ :: nodesOfAll children
  | .text value => [.text value]
  | .raw value => [.raw value]

def nodesOfAll : List Node → List Node
  | [] => []
  | n :: rest => n.nodes ++ nodesOfAll rest

end

def descendants (n : Node) : List Node := nodesOfAll n.children

theorem nodesOfAll_append (ms ns : List Node) :
    nodesOfAll (ms ++ ns) = nodesOfAll ms ++ nodesOfAll ns := by
  induction ms with
  | nil => rfl
  | cons m ms ih => simp only [List.cons_append, nodesOfAll, ih, List.append_assoc]

theorem nodes_element (e : Element) : (element e).nodes = .element e :: nodesOfAll e.children := by
  obtain ⟨tag, properties, children, kind⟩ := e
  rw [nodes]

theorem mem_nodesOfAll {m : Node} {ns : List Node} :
    m ∈ nodesOfAll ns ↔ ∃ n ∈ ns, m ∈ n.nodes := by
  induction ns with
  | nil => simp [nodesOfAll]
  | cons n rest ih => simp [nodesOfAll, ih]

theorem nodesOfAll_subset {ms ns : List Node} (h : ns ⊆ ms) : nodesOfAll ns ⊆ nodesOfAll ms := by
  intro m hm
  obtain ⟨n, hn, hm⟩ := mem_nodesOfAll.mp hm
  exact mem_nodesOfAll.mpr ⟨n, h hn, hm⟩

mutual

theorem induction_children {motive : Node → Prop}
    (step : ∀ n, (∀ c ∈ n.children, motive c) → motive n) : ∀ n, motive n
  | .root children => step _ (induction_children_all step children)
  | .element ⟨_, _, children, _⟩ => step _ (induction_children_all step children)
  | .text _ => step _ fun _ hc => absurd hc List.not_mem_nil
  | .raw _ => step _ fun _ hc => absurd hc List.not_mem_nil

theorem induction_children_all {motive : Node → Prop}
    (step : ∀ n, (∀ c ∈ n.children, motive c) → motive n) : ∀ ns : List Node, ∀ n ∈ ns, motive n
  | [] => fun _ hn => absurd hn List.not_mem_nil
  | n :: rest =>
      List.forall_mem_cons.mpr ⟨induction_children step n, induction_children_all step rest⟩

end

end KeyedMarkup.Hypertext.Node
