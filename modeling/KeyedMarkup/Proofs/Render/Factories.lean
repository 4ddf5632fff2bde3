import KeyedMarkup.Proofs.Render.Calls
import KeyedMarkup.Proofs.Render.Plain

/-!
# Renderings by different factories

Every element of a rendering is made by the factory, on whatever way it comes about. So a factory
that changes tags, keys and attributes gives the plain rendering with all of these changed, as long
as the components leave the making of elements to the factory. Without components the factory is
asked once for every root and every element, in post-order.
-/

namespace KeyedMarkup

namespace Keyed

mutual

/-- A node with the tag of every element changed by `onTag`, its key and attributes by `onProps`. -/
def Node.adapted (onTag : String → String) (onProps : Props → Props) : Node → Node
  | .element e => .element (e.adapted onTag onProps)
  | .text value => .text value
  | .raw value => .raw value

def Element.adapted (onTag : String → String) (onProps : Props → Props) : Element → Element
  | ⟨tag, key, properties, children⟩ =>
      ⟨onTag tag, (onProps ⟨key, properties⟩).key, (onProps ⟨key, properties⟩).attributes,
        adaptedAll onTag onProps children⟩

def adaptedAll (onTag : String → String) (onProps : Props → Props) : List Node → List Node
  | [] => []
  | n :: rest => n.adapted onTag onProps :: adaptedAll onTag onProps rest

end

end Keyed

namespace Render

/-- Whether a component gives the same text or raw HTML whatever it is asked about. -/
def IsFixed (c : Component) : Prop :=
  ∃ r : Keyed.Node, (∀ e, r ≠ .element e) ∧ ∀ i : Input, (c i).outcome = .ok r

def Options.withFactory (o : Options) (factory : Keyed.Factory) : Options := { o with factory }

@[simp] theorem components_withFactory (o : Options) (factory : Keyed.Factory) :
    (o.withFactory factory).components = o.components := rfl

@[simp] theorem maxDepth_withFactory (o : Options) (factory : Keyed.Factory) :
    (o.withFactory factory).maxDepth = o.maxDepth := rfl

/-- Whether every component leaves the making of elements to the factory. -/
def Options.LeavesElements (o : Options) : Prop :=
  ∀ e ∈ o.components.entries, Renames e.2 ∨ IsFixed e.2

variable {o : Options} (onTag : String → String) (onProps : Keyed.Props → Keyed.Props)

theorem contentOf_adaptedAll (n : Hypertext.Node) (children : List Keyed.Node) :
    contentOf n (Keyed.adaptedAll onTag onProps children) =
      Keyed.adaptedAll onTag onProps (contentOf n children) := by
  cases n <;> rfl

theorem ownRendering_adapted (key : String) (n : Hypertext.Node) (properties : Properties)
    (content : List Keyed.Node) :
    ownRendering (o.withFactory (.adapted onTag onProps)) key n properties
        (Keyed.adaptedAll onTag onProps content) =
      (ownRendering (o.withFactory .plain) key n properties content).adapted onTag onProps := by
  cases n with
  | root children => rfl
  | element e => rfl
  | text value => cases content <;> rfl
  | raw value => cases content <;> rfl

theorem adapted_of_ne_element {r : Keyed.Node} (h : ∀ e, r ≠ .element e) :
    r.adapted onTag onProps = r := by
  cases r with
  | element e => exact absurd rfl (h e)
  | text value => rfl
  | raw value => rfl

theorem placed_adapted (h : o.LeavesElements) (key : String) (n : Hypertext.Node)
    (properties : Properties) (content : List Keyed.Node) (own : Keyed.Node) :
    placed (o.withFactory (.adapted onTag onProps)) key n properties
        (Keyed.adaptedAll onTag onProps content) (own.adapted onTag onProps) =
      (placed (o.withFactory .plain) key n properties content own).map
        (·.adapted onTag onProps) := by
  unfold placed
  rw [components_withFactory, components_withFactory]
  cases hfound : o.components.override? n with
  | none => rfl
  | some found =>
      dsimp only
      rcases h found (Registry.mem_of_override? hfound) with ⟨name, hname⟩ | ⟨r, hr, hfixed⟩
      · rw [hname, hname]
        rfl
      · rw [hfixed, hfixed]
        show Except.ok r = Except.ok (r.adapted onTag onProps)
        rw [adapted_of_ne_element onTag onProps hr]

theorem renderedAll_adapted {ns : List Hypertext.Node}
    (h : ∀ n ∈ ns, ∀ p, rendered (o.withFactory (.adapted onTag onProps)) p n =
      (rendered (o.withFactory .plain) p n).map (·.adapted onTag onProps))
    (p : Position) (index : Nat) :
    renderedAll (o.withFactory (.adapted onTag onProps)) p index ns =
      (renderedAll (o.withFactory .plain) p index ns).map
        (Keyed.adaptedAll onTag onProps) := by
  induction ns generalizing index with
  | nil => rfl
  | cons n rest ih =>
      rw [List.forall_mem_cons] at h
      rw [renderedAll, renderedAll, maxDepth_withFactory, maxDepth_withFactory]
      split
      · rw [h.1, ih h.2]
        cases rendered (o.withFactory .plain) (index :: p) n with
        | error e => rfl
        | ok r => cases renderedAll (o.withFactory .plain) p (index + 1) rest <;> rfl
      · rfl

theorem rendered_adapted (h : o.LeavesElements) (n : Hypertext.Node) (p : Position) :
    rendered (o.withFactory (.adapted onTag onProps)) p n =
      (rendered (o.withFactory .plain) p n).map (·.adapted onTag onProps) := by
  induction n using Hypertext.Node.induction_children generalizing p with
  | step n ih =>
      rw [rendered_eq, rendered_eq, renderedAll_adapted onTag onProps ih]
      cases renderedAll (o.withFactory .plain) p 0 n.children with
      | error e => rfl
      | ok children =>
          have hplaced := placed_adapted onTag onProps h (keyAt o.keyPrefix p) n n.properties
            (contentOf n children) (ownRendering (o.withFactory .plain) (keyAt o.keyPrefix p) n
              n.properties (contentOf n children))
          rw [← contentOf_adaptedAll, ← ownRendering_adapted, ← contentOf_adaptedAll] at hplaced
          exact hplaced

theorem outcome_adapted (h : o.LeavesElements) (n : Hypertext.Node) :
    (renderHypertext (o.withFactory (.adapted onTag onProps)) n).outcome =
      (renderHypertext (o.withFactory .plain) n).outcome.map (·.adapted onTag onProps) := by
  rw [outcome_renderHypertext, outcome_renderHypertext, rendered_adapted onTag onProps h]
  cases rendered (o.withFactory .plain) [] (.root n.rootChildren) with
  | error e => rfl
  | ok r => cases r <;> rfl

def tagged (ms : List (Position × Hypertext.Node)) : List (Position × Hypertext.Node) :=
  ms.filter fun m => (tagOf m.2).isSome

/-- Whether the factory is asked for the element of a node, with the renderings of its children. -/
structure IsCreationFor (o : Options) (m : Position × Hypertext.Node) (c : Keyed.Creation) :
    Prop where
  tag : tagOf m.2 = some c.tag
  props : c.props = ⟨some (keyAt o.keyPrefix m.1), m.2.properties⟩
  children : renderedAll o m.1 0 m.2.children = .ok c.children

theorem creations_of_empty (h : o.components = .empty) (m : Placement) :
    m.creations o = m.ownCreations o := by
  rw [Placement.creations, h, override?_empty]

theorem isCreationFor_ownCreations {m : Placement} (hfilled : m.IsFilled o) :
    List.Forall₂ (IsCreationFor o) (tagged [m.located]) (m.ownCreations o) := by
  obtain ⟨children, hchildren, hcontent⟩ := hfilled
  obtain ⟨p, n, content⟩ := m
  cases n with
  | root cs => exact .cons ⟨rfl, rfl, hcontent ▸ hchildren⟩ .nil
  | element e => exact .cons ⟨rfl, rfl, hcontent ▸ hchildren⟩ .nil
  | text value => exact .nil
  | raw value => exact .nil

theorem isCreationFor_creations (h : o.components = .empty) {ms : List Placement}
    (hfilled : ∀ m ∈ ms, m.IsFilled o) :
    List.Forall₂ (IsCreationFor o) (tagged (ms.map Placement.located))
      (ms.flatMap (·.creations o)) := by
  induction ms with
  | nil => exact .nil
  | cons m ms ih =>
      rw [List.forall_mem_cons] at hfilled
      rw [List.map_cons, List.flatMap_cons, creations_of_empty h, ← List.singleton_append, tagged,
        List.filter_append]
      exact List.rel_append (isCreationFor_ownCreations hfilled.1) (ih hfilled.2)

/-- Without components only the depth of a tree ends its rendering. -/
theorem Stopped.of_empty (h : o.components = .empty) {e : Error}
    {pre post : List (Position × Hypertext.Node)} {ms : List Placement}
    (hstopped : Stopped o pre post ms e) :
    ∃ first, firstTooDeep o pre = some first ∧
      ms.map Placement.located = post.filter fun m => m.1.leftOf first.1 := by
  cases e with
  | depthExceeded limit =>
      obtain ⟨_, first, hfirst, hplaced, _⟩ := hstopped
      exact ⟨first, hfirst, hplaced⟩
  | component target key cause =>
      obtain ⟨front, last, _, _, _, found, hfound, _⟩ := hstopped
      rw [h, override?_empty] at hfound
      cases hfound

theorem exists_element_of_rendered_root (h : o.components = .empty) {p : Position}
    {children : List Hypertext.Node} {r : Keyed.Node}
    (hr : rendered o p (.root children) = .ok r) : ∃ e, r = .element e := by
  rw [rendered] at hr
  obtain ⟨content, _, hr⟩ := bind_eq_ok.mp hr
  rw [placed_of_empty h] at hr
  exact ⟨_, (Except.ok.inj hr).symm⟩

/-- Without components the factory is asked for the roots and elements in post-order, and if the
tree is too deep, for those that end before the first node below the limit. -/
theorem creations_renderHypertext (h : o.components = .empty) (n : Hypertext.Node) :
    let made := tagged (postorder [] (.root n.rootChildren))
    let creations := (renderHypertext o n).creations
    match (renderHypertext o n).outcome with
    | .ok _ => List.Forall₂ (IsCreationFor o) made creations
    | .error _ => ∃ first, firstTooDeep o (located [] (.root n.rootChildren)) = some first ∧
        List.Forall₂ (IsCreationFor o) (made.filter fun m => m.1.leftOf first.1) creations := by
  have hreached := reached_placements (o := o) (.root n.rootChildren) [] (Nat.zero_le _)
  have hfilled := isFilled_placements o (.root n.rootChildren) []
  have hcreations := (notes_renderHypertext o n).2
  dsimp only at hcreations ⊢
  rw [hcreations, outcome_renderHypertext]
  generalize placements o [] (.root n.rootChildren) = ms at hreached hfilled
  have hfor := isCreationFor_creations h hfilled
  cases hresult : rendered o [] (.root n.rootChildren) with
  | ok r =>
      rw [hresult] at hreached
      -- What becomes of a root is an element, so no container is made around it.
      obtain ⟨e, rfl⟩ := exists_element_of_rendered_root h hresult
      rw [following, List.append_nil, ← hreached.inOrder]
      exact hfor
  | error e =>
      rw [hresult, reached_error] at hreached
      obtain ⟨first, hfirst, hplaced⟩ := hreached.of_empty h
      refine ⟨first, hfirst, ?_⟩
      rw [following, List.append_nil, tagged, List.filter_comm, ← hplaced]
      exact hfor

/-- Where components leave the making of elements to the factory, an adapted factory gives the
plain rendering adapted, or the same error. Without components it is asked once for every root and
element of a tree that is rendered, and for those before the failure of one that is not. -/
theorem renderHypertext_adapted (h : o.LeavesElements) (n : Hypertext.Node) :
    let root := Hypertext.Node.root n.rootChildren
    let options := o.withFactory (.adapted onTag onProps)
    (renderHypertext options n).outcome =
        (renderHypertext (o.withFactory .plain) n).outcome.map (·.adapted onTag onProps) ∧
      (o.components = .empty →
        match (renderHypertext options n).outcome with
        | .ok _ => List.Forall₂ (IsCreationFor options) (tagged (postorder [] root))
            (renderHypertext options n).creations
        | .error _ => ∃ first, firstTooDeep options (located [] root) = some first ∧
            List.Forall₂ (IsCreationFor options)
              ((tagged (postorder [] root)).filter fun m => m.1.leftOf first.1)
              (renderHypertext options n).creations) := by
  refine ⟨outcome_adapted onTag onProps h n, ?_⟩
  intro hempty
  have hmade : (o.withFactory (.adapted onTag onProps)).components = .empty := hempty
  exact creations_renderHypertext hmade n

theorem renderHypertext_adapted_ruledParagraph :
    ruling.LeavesElements ∧
      (renderHypertext (ruling.withFactory (.adapted ("x-" ++ ·) fun _ => ⟨none, .empty⟩))
          ruledParagraph).outcome =
        .ok ⟨"x-div", none, .empty, [.element ⟨"x-p", none, .empty,
          [.element ⟨"x-span", none, .empty, [.text "a"]⟩, .raw "<hr>"]⟩]⟩ ∧
      ({} : Options).LeavesElements ∧
      List.Forall₂ (IsCreationFor (({} : Options).withFactory (.adapted ("x-" ++ ·) id)))
        [([1, 0], .element ⟨"hr", .empty, [], none⟩), ([0], ruledParagraph),
          ([], .root [ruledParagraph])]
        (renderHypertext (({} : Options).withFactory (.adapted ("x-" ++ ·) id))
          ruledParagraph).creations := by
  have hruling : ruling.LeavesElements := by
    intro c hc
    rcases List.mem_cons.mp hc with rfl | hc
    · exact .inr ⟨.raw "<hr>", nofun, fun _ => rfl⟩
    · obtain rfl := List.mem_singleton.mp hc
      exact .inl ⟨fun _ _ _ _ => "span", fun _ => rfl⟩
  have hplain : (renderHypertext (ruling.withFactory .plain) ruledParagraph).outcome =
      .ok renderedParagraph := by
    rw [show ruling.withFactory .plain = ruling from rfl, outcome_renderHypertext,
      rendered_ruledParagraph]
  obtain ⟨hadapted, _⟩ := renderHypertext_adapted ("x-" ++ ·) (fun _ => ⟨none, .empty⟩) hruling
    ruledParagraph
  have hnone : ({} : Options).LeavesElements := nofun
  have hmade := (renderHypertext_adapted ("x-" ++ ·) id hnone ruledParagraph).2 rfl
  have hdone : (renderHypertext (({} : Options).withFactory (.adapted ("x-" ++ ·) id))
      ruledParagraph).outcome = .ok ⟨"x-div", some "h", .empty, [.element ⟨"x-p", some "h-0",
        .empty, [.text "a", .element ⟨"x-hr", some "h-0-1", .empty, []⟩]⟩]⟩ := by
    rw [outcome_renderHypertext]
    with_unfolding_all rfl
  rw [hdone] at hmade
  refine ⟨hruling, ?_, hnone, hmade⟩
  rw [hadapted, hplain]
  rfl

end Render

end KeyedMarkup
