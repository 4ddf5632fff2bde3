import KeyedMarkup.Proofs.Hypertext.Nodes
import KeyedMarkup.Proofs.Keyed.Nodes
import KeyedMarkup.Proofs.Render.Recursion

/-!
# Rendering without overrides

With the plain factory and no components a rendering that succeeds copies the hypertext tree: a
root becomes a container, every element keeps its tag, attributes and children, and all of them
get the key of their position.
-/

namespace KeyedMarkup

/-- Whether a node is no raw HTML and the names that it brings along are of the given kinds. -/
def Hypertext.Node.Uses (tags attributes : String → Prop) : Hypertext.Node → Prop
  | .root _ => tags Render.containerTag
  | .element e => tags e.tag ∧ ∀ p ∈ e.properties.entries, attributes p.1
  | .text _ => True
  | .raw _ => False

namespace Render

mutual

def keyed (keyPrefix : String) (p : Position) : Hypertext.Node → Keyed.Node
  | .root children =>
      .element ⟨containerTag, some (keyAt keyPrefix p), .empty, keyedAll keyPrefix p 0 children⟩
  | .element ⟨tag, properties, children, _⟩ =>
      .element ⟨tag, some (keyAt keyPrefix p), properties, keyedAll keyPrefix p 0 children⟩
  | .text value => .text value
  | .raw value => .raw value

def keyedAll (keyPrefix : String) (p : Position) (index : Nat) :
    List Hypertext.Node → List Keyed.Node
  | [] => []
  | n :: rest => keyed keyPrefix (index :: p) n :: keyedAll keyPrefix p (index + 1) rest

end

/-- Whether nothing but the built-in rendering takes part. -/
def Options.IsPlain (o : Options) : Prop := o.components = .empty ∧ o.factory = .plain

theorem override?_empty {γ : Type} (n : Hypertext.Node) :
    (Registry.empty : Registry γ).override? n = none := by
  have hnone (target : Target) : (Registry.empty : Registry γ).get? target = none := rfl
  unfold Registry.override?
  cases tagOf n <;> cases n.kind? <;> simp [hnone]

variable {o : Options}

theorem placed_of_empty (h : o.components = .empty) (key : String) (n : Hypertext.Node)
    (properties : Properties) (children : List Keyed.Node) (own : Keyed.Node) :
    placed o key n properties children own = .ok own := by
  rw [placed, h, override?_empty]

theorem placed_of_isPlain (h : o.IsPlain) (key : String) (n : Hypertext.Node)
    (properties : Properties) (children : List Keyed.Node) (own : Keyed.Node) :
    placed o key n properties children own = .ok own :=
  placed_of_empty h.1 key n properties children own

mutual

theorem eq_keyed_of_rendered (h : o.IsPlain) (n : Hypertext.Node) (p : Position)
    {r : Keyed.Node} (hr : rendered o p n = .ok r) : r = keyed o.keyPrefix p n := by
  cases n with
  | root children =>
      rw [rendered] at hr
      obtain ⟨rs, hall, hr⟩ := bind_eq_ok.mp hr
      rw [placed_of_isPlain h, h.2] at hr
      rw [keyed, ← eq_keyedAll_of_renderedAll h children p 0 hall]
      exact (Except.ok.inj hr).symm
  | element e =>
      obtain ⟨tag, properties, children, kind⟩ := e
      rw [rendered] at hr
      obtain ⟨rs, hall, hr⟩ := bind_eq_ok.mp hr
      rw [placed_of_isPlain h, h.2] at hr
      rw [keyed, ← eq_keyedAll_of_renderedAll h children p 0 hall]
      exact (Except.ok.inj hr).symm
  | text value =>
      rw [rendered, placed_of_isPlain h] at hr
      exact (Except.ok.inj hr).symm
  | raw value =>
      rw [rendered, placed_of_isPlain h] at hr
      exact (Except.ok.inj hr).symm

theorem eq_keyedAll_of_renderedAll (h : o.IsPlain) (ns : List Hypertext.Node) (p : Position)
    (index : Nat) {rs : List Keyed.Node} (hrs : renderedAll o p index ns = .ok rs) :
    rs = keyedAll o.keyPrefix p index ns := by
  cases ns with
  | nil => exact (Except.ok.inj hrs).symm
  | cons n rest =>
      rw [renderedAll] at hrs
      split at hrs
      · obtain ⟨r, hn, hrs⟩ := bind_eq_ok.mp hrs
        obtain ⟨others, hrest, hrs⟩ := bind_eq_ok.mp hrs
        rw [keyedAll, ← eq_keyed_of_rendered h n (index :: p) hn,
          ← eq_keyedAll_of_renderedAll h rest p (index + 1) hrest]
        exact (Except.ok.inj hrs).symm
      · cases hrs

end

/-- A document that is rendered at all becomes the keyed copy of its hypertext. -/
theorem eq_keyed_of_render (h : o.IsPlain) {tree : Doc.Node} {e : Keyed.Element}
    (he : (render o tree).outcome = .ok e) :
    .element e =
      keyed o.keyPrefix [] (.root (prepare tree o.sanitizing o.convert).rootChildren) := by
  rw [render, Options.prepare] at he
  split at he
  next hypertext hprepared =>
    split at hprepared
    · cases hprepared
    · cases hprepared
      rw [outcome_renderHypertext] at he
      split at he
      · cases he
      next r hr =>
        cases he
        exact eq_keyed_of_rendered h _ [] hr
      next other hother hr =>
        -- The copy of a root is an element.
        have hcopy := eq_keyed_of_rendered h _ [] hr
        rw [keyed] at hcopy
        exact absurd hcopy (hother _)
  next => cases he

variable {tags attributes : String → Prop}

mutual

theorem uses_keyed (keyPrefix : String) (n : Hypertext.Node) (p : Position)
    (h : ∀ m ∈ n.nodes, m.Uses tags attributes) :
    ∀ m ∈ (keyed keyPrefix p n).nodes, m.Uses tags attributes := by
  cases n with
  | root children =>
      rw [Hypertext.Node.nodes, List.forall_mem_cons] at h
      rw [keyed, Keyed.Node.nodes, List.forall_mem_cons]
      exact ⟨⟨h.1, nofun⟩, uses_keyedAll keyPrefix children p 0 h.2⟩
  | element e =>
      obtain ⟨tag, properties, children, kind⟩ := e
      rw [Hypertext.Node.nodes, List.forall_mem_cons] at h
      rw [keyed, Keyed.Node.nodes, List.forall_mem_cons]
      exact ⟨h.1, uses_keyedAll keyPrefix children p 0 h.2⟩
  | text value => simp [keyed, Keyed.Node.nodes, Keyed.Node.Uses]
  | raw value => exact absurd (h (.raw value) (by simp [Hypertext.Node.nodes])) id

theorem uses_keyedAll (keyPrefix : String) (ns : List Hypertext.Node) (p : Position)
    (index : Nat) (h : ∀ m ∈ Hypertext.Node.nodesOfAll ns, m.Uses tags attributes) :
    ∀ m ∈ Keyed.nodesOfAll (keyedAll keyPrefix p index ns), m.Uses tags attributes := by
  cases ns with
  | nil => exact nofun
  | cons n rest =>
      rw [Hypertext.Node.nodesOfAll, List.forall_mem_append] at h
      rw [keyedAll, Keyed.nodesOfAll, List.forall_mem_append]
      exact ⟨uses_keyed keyPrefix n (index :: p) h.1,
        uses_keyedAll keyPrefix rest p (index + 1) h.2⟩

end

end Render

end KeyedMarkup
