import KeyedMarkup.Proofs.Hypertext.Nodes
import KeyedMarkup.Proofs.Render.Keys

/-!
# The order of a rendering

The nodes of a tree are placed in post-order: the children of a node in document order, then the
node itself with what became of them. If all goes well every node is placed once. If a component
fails its node is the last one that is placed, and if the tree is too deep, those nodes are placed
that end before the first position, in document order, that is below the limit.
-/

namespace KeyedMarkup

def Hypertext.Node.properties : Hypertext.Node → Properties
  | .element e => e.properties
  | .root _ | .text _ | .raw _ => .empty

namespace Render

/-- Whether one way takes a lower index than another where they part. -/
def turnsLeft : List Nat → List Nat → Bool
  | i :: path, j :: path' => i < j || (i == j && turnsLeft path path')
  | _, _ => false

/-- Whether a position ends, with all that is below it, before another one begins. -/
def Position.leftOf (p q : Position) : Bool := turnsLeft p.reverse q.reverse

theorem turnsLeft_append (path way way' : List Nat) :
    turnsLeft (path ++ way) (path ++ way') = turnsLeft way way' := by
  induction path with
  | nil => rfl
  | cons i path ih => simp [turnsLeft, ih]

theorem leftOf_eq {p q q' : Position} {i j : Nat} (hq : i :: p <:+ q) (hq' : j :: p <:+ q')
    (hne : i ≠ j) : q.leftOf q' = decide (i < j) := by
  obtain ⟨rest, rfl⟩ := hq
  obtain ⟨rest', rfl⟩ := hq'
  simp [Position.leftOf, turnsLeft_append, turnsLeft, hne]

theorem leftOf_of_sibling {p q q' : Position} {index : Nat} (hq : index :: p <:+ q)
    (hq' : ∃ i, index + 1 ≤ i ∧ i :: p <:+ q') : q.leftOf q' = true ∧ q'.leftOf q = false := by
  obtain ⟨i, hi, hsuffix⟩ := hq'
  have hne : index ≠ i := by omega
  rw [leftOf_eq hq hsuffix hne, leftOf_eq hsuffix hq hne.symm]
  exact ⟨decide_eq_true (by omega), decide_eq_false (by omega)⟩

theorem leftOf_below {p q : Position} (h : p <:+ q) : p.leftOf q = false := by
  obtain ⟨rest, rfl⟩ := h
  have hway := turnsLeft_append p.reverse [] rest.reverse
  rw [List.append_nil] at hway
  rw [Position.leftOf, List.reverse_append, hway]
  rfl

theorem leftOf_above {p q : Position} (h : p <:+ q) : q.leftOf p = false := by
  obtain ⟨rest, rfl⟩ := h
  have hway := turnsLeft_append p.reverse rest.reverse []
  rw [List.append_nil] at hway
  rw [Position.leftOf, List.reverse_append, hway]
  cases rest.reverse <;> rfl

theorem located_eq (p : Position) (n : Hypertext.Node) :
    located p n = (p, n) :: locatedAll p 0 n.children := by
  rcases n with children | ⟨tag, properties, children, kind⟩ | value | value <;> rfl

mutual

/-- The nodes of a tree with their positions, each after all that is below it. -/
def postorder (p : Position) : Hypertext.Node → List (Position × Hypertext.Node)
  | .root children => postorderAll p 0 children ++ [(p, .root children)]
  | .element ⟨tag, properties, children, kind⟩ =>
      postorderAll p 0 children ++ [(p, .element ⟨tag, properties, children, kind⟩)]
  | .text value => [(p, .text value)]
  | .raw value => [(p, .raw value)]

def postorderAll (p : Position) (index : Nat) :
    List Hypertext.Node → List (Position × Hypertext.Node)
  | [] => []
  | n :: rest => postorder (index :: p) n ++ postorderAll p (index + 1) rest

end

theorem postorder_eq (p : Position) (n : Hypertext.Node) :
    postorder p n = postorderAll p 0 n.children ++ [(p, n)] := by
  rcases n with children | ⟨tag, properties, children, kind⟩ | value | value <;> rfl

theorem perm_postorderAll {ns : List Hypertext.Node}
    (h : ∀ n ∈ ns, ∀ p, (postorder p n).Perm (located p n)) (p : Position) (index : Nat) :
    (postorderAll p index ns).Perm (locatedAll p index ns) := by
  induction ns generalizing index with
  | nil => exact .refl _
  | cons n rest ih =>
      rw [List.forall_mem_cons] at h
      exact (h.1 (index :: p)).append (ih h.2 (index + 1))

theorem perm_postorder (n : Hypertext.Node) (p : Position) :
    (postorder p n).Perm (located p n) := by
  induction n using Hypertext.Node.induction_children generalizing p with
  | step n ih =>
      rw [postorder_eq, located_eq]
      exact (List.perm_append_singleton _ _).trans ((perm_postorderAll ih p 0).cons _)

theorem suffix_of_mem_postorder {p : Position} {n : Hypertext.Node}
    {m : Position × Hypertext.Node} (hm : m ∈ postorder p n) : p <:+ m.1 :=
  suffix_of_mem_located n p ((perm_postorder n p).mem_iff.mp hm)

theorem suffix_of_mem_postorderAll {p : Position} {index : Nat} {ns : List Hypertext.Node}
    {m : Position × Hypertext.Node} (hm : m ∈ postorderAll p index ns) :
    ∃ i, index ≤ i ∧ i :: p <:+ m.1 :=
  suffix_of_mem_locatedAll ns p index
    ((perm_postorderAll (fun n _ => perm_postorder n) p index).mem_iff.mp hm)

/-- What a node is placed with, given the renderings of its children: texts and raw HTML have none
and are placed with themselves. -/
def contentOf : Hypertext.Node → List Keyed.Node → List Keyed.Node
  | .text value, _ => [.text value]
  | .raw value, _ => [.raw value]
  | .root _, children | .element _, children => children

/-- A node that is placed, where it stands and what it is placed with. -/
structure Placement where
  position : Position
  node : Hypertext.Node
  content : List Keyed.Node

def Placement.located (m : Placement) : Position × Hypertext.Node := (m.position, m.node)

/-- What comes after a step, which is nothing if the step fails. -/
def following {α β : Type} (x : Except Error α) (next : α → List β) : List β :=
  match x with
  | .ok a => next a
  | .error _ => []

variable (o : Options)

mutual

/-- The nodes that are placed in the rendering of a node, in the order in which they are. -/
def placements (p : Position) : Hypertext.Node → List Placement
  | .root children =>
      placementsAll p 0 children ++
        following (renderedAll o p 0 children) fun content => [⟨p, .root children, content⟩]
  | .element ⟨tag, properties, children, kind⟩ =>
      placementsAll p 0 children ++
        following (renderedAll o p 0 children) fun content =>
          [⟨p, .element ⟨tag, properties, children, kind⟩, content⟩]
  | .text value => [⟨p, .text value, [.text value]⟩]
  | .raw value => [⟨p, .raw value, [.raw value]⟩]

def placementsAll (p : Position) (index : Nat) : List Hypertext.Node → List Placement
  | [] => []
  | n :: rest =>
      if p.length < o.maxDepth then
        placements (index :: p) n ++
          following (rendered o (index :: p) n) fun _ => placementsAll p (index + 1) rest
      else []

end

theorem placements_eq (p : Position) (n : Hypertext.Node) :
    placements o p n = placementsAll o p 0 n.children ++
      following (renderedAll o p 0 n.children) fun children => [⟨p, n, contentOf n children⟩] := by
  rcases n with children | ⟨tag, properties, children, kind⟩ | value | value <;> rfl

theorem rendered_eq (p : Position) (n : Hypertext.Node) :
    rendered o p n = renderedAll o p 0 n.children >>= fun children =>
      placed o (keyAt o.keyPrefix p) n n.properties (contentOf n children)
        (ownRendering o (keyAt o.keyPrefix p) n n.properties (contentOf n children)) := by
  rcases n with children | ⟨tag, properties, children, kind⟩ | value | value <;> rfl

theorem visit_eq_place (n : Hypertext.Node) (w : Walk) :
    visit o n w = match visitAll o 0 n.children w with
      | (.ok children, w) => w.place o n n.properties (contentOf n children)
      | (.error e, w) => (.error e, w) := by
  rcases n with children | ⟨tag, properties, children, kind⟩ | value | value <;> rfl

theorem length_renderedAll {p : Position} {index : Nat} {ns : List Hypertext.Node}
    {rs : List Keyed.Node} (h : renderedAll o p index ns = .ok rs) : rs.length = ns.length := by
  induction ns generalizing index rs with
  | nil =>
      obtain rfl := Except.ok.inj h
      rfl
  | cons n rest ih =>
      rw [renderedAll] at h
      split at h
      · obtain ⟨r, _, h⟩ := bind_eq_ok.mp h
        obtain ⟨others, hrest, h⟩ := bind_eq_ok.mp h
        obtain rfl := Except.ok.inj h
        rw [List.length_cons, List.length_cons, ih hrest]
      · cases h

namespace Placement

/-- Whether a node is placed with what became of its children. -/
def IsFilled (m : Placement) : Prop :=
  ∃ children, renderedAll o m.position 0 m.node.children = .ok children ∧
    m.content = contentOf m.node children

def input (m : Placement) : Input :=
  ⟨tagOf m.node, m.node.kind?, keyAt o.keyPrefix m.position, m.node.properties, m.content,
    o.factory⟩

/-- Whether the component for a placed node does not fail, if there is one. -/
def Succeeds (m : Placement) : Prop :=
  ∀ found, o.components.override? m.node = some found → ∃ r, (found.2 (m.input o)).outcome = .ok r

/-- Whether the component for a placed node fails, and what error comes of it. -/
def Fails (m : Placement) (target key cause : String) : Prop :=
  ∃ found, o.components.override? m.node = some found ∧
    (found.2 (m.input o)).outcome = .error cause ∧ target = found.1.text ∧
    key = keyAt o.keyPrefix m.position

end Placement

theorem isFilled_placementsAll {ns : List Hypertext.Node}
    (h : ∀ n ∈ ns, ∀ p, ∀ m ∈ placements o p n, m.IsFilled o) (p : Position) (index : Nat) :
    ∀ m ∈ placementsAll o p index ns, m.IsFilled o := by
  induction ns generalizing index with
  | nil => exact nofun
  | cons n rest ih =>
      rw [List.forall_mem_cons] at h
      rw [placementsAll]
      split
      · rw [List.forall_mem_append]
        refine ⟨h.1 (index :: p), ?_⟩
        cases rendered o (index :: p) n with
        | ok r => exact ih h.2 (index + 1)
        | error e => exact nofun
      · exact nofun

theorem isFilled_placements (n : Hypertext.Node) (p : Position) :
    ∀ m ∈ placements o p n, m.IsFilled o := by
  induction n using Hypertext.Node.induction_children generalizing p with
  | step n ih =>
      rw [placements_eq, List.forall_mem_append]
      refine ⟨isFilled_placementsAll o ih p 0, ?_⟩
      cases hchildren : renderedAll o p 0 n.children with
      | ok children => exact List.forall_mem_singleton.mpr ⟨children, hchildren, rfl⟩
      | error e => exact nofun

variable (pre post pre' post' : List (Position × Hypertext.Node)) (ms ms' : List Placement)

/-- Whether all nodes of some part of a tree are placed, in post-order and without a failure. The
part is given by its nodes in document order and in post-order. -/
structure Finished : Prop where
  inOrder : ms.map Placement.located = post
  succeeded : ∀ m ∈ ms, m.Succeeds o
  shallow : ∀ m ∈ pre, m.1.length ≤ o.maxDepth

def firstTooDeep (pre : List (Position × Hypertext.Node)) : Option (Position × Hypertext.Node) :=
  pre.find? fun m => o.maxDepth < m.1.length

/-- Which nodes of some part of a tree are placed before an error ends the rendering. -/
def Stopped : Error → Prop
  | .component target key cause =>
      ∃ front last, ms = front ++ [last] ∧ ms.map Placement.located <+: post ∧
        (∀ m ∈ front, m.Succeeds o) ∧ last.Fails o target key cause
  | .depthExceeded limit =>
      limit = o.maxDepth ∧ ∃ first, firstTooDeep o pre = some first ∧
        ms.map Placement.located = post.filter (fun m => m.1.leftOf first.1) ∧
        ∀ m ∈ ms, m.Succeeds o

/-- Which nodes of some part of a tree are placed, given what comes of it. -/
def Reached {α : Type} : Except Error α → Prop
  | .ok _ => Finished o pre post ms
  | .error e => Stopped o pre post ms e

variable {o pre post pre' post' ms ms'}

theorem reached_error {α : Type} (e : Error) :
    Reached o pre post ms (.error e : Except Error α) ↔ Stopped o pre post ms e := .rfl

theorem Finished.append (h : Finished o pre post ms) (h' : Finished o pre' post' ms') :
    Finished o (pre ++ pre') (post ++ post') (ms ++ ms') where
  inOrder := by rw [List.map_append, h.inOrder, h'.inOrder]
  succeeded := List.forall_mem_append.mpr ⟨h.succeeded, h'.succeeded⟩
  shallow := List.forall_mem_append.mpr ⟨h.shallow, h'.shallow⟩

theorem Finished.firstTooDeep_append (h : Finished o pre post ms) :
    firstTooDeep o (pre ++ pre') = firstTooDeep o pre' := by
  have hnone : firstTooDeep o pre = none := by
    apply List.find?_eq_none.mpr
    intro m hm
    simpa using h.shallow m hm
  rw [firstTooDeep, List.find?_append, ← firstTooDeep, hnone, Option.none_or]
  rfl

/-- An error that comes after a part that is finished and stands to the left. -/
theorem Stopped.append_left {e : Error} (h : Finished o pre post ms)
    (h' : Stopped o pre' post' ms' e)
    (hleft : ∀ m ∈ post, ∀ first ∈ pre', m.1.leftOf first.1 = true) :
    Stopped o (pre ++ pre') (post ++ post') (ms ++ ms') e := by
  cases e with
  | component target key cause =>
      obtain ⟨front, last, rfl, hprefix, hsucceeds, hfails⟩ := h'
      refine ⟨ms ++ front, last, (List.append_assoc _ _ _).symm, ?_, ?_, hfails⟩
      · rw [List.map_append, h.inOrder]
        exact (List.prefix_append_right_inj post).mpr hprefix
      · exact List.forall_mem_append.mpr ⟨h.succeeded, hsucceeds⟩
  | depthExceeded limit =>
      obtain ⟨hlimit, first, hfirst, hplaced, hsucceeds⟩ := h'
      have hall : post.filter (fun m => m.1.leftOf first.1) = post :=
        List.filter_eq_self.mpr fun m hm => hleft m hm first (List.mem_of_find?_eq_some hfirst)
      refine ⟨hlimit, first, h.firstTooDeep_append.trans hfirst, ?_, ?_⟩
      · rw [List.map_append, List.filter_append, h.inOrder, hplaced, hall]
      · exact List.forall_mem_append.mpr ⟨h.succeeded, hsucceeds⟩

/-- An error before a part that does not stand to the left of it. -/
theorem Stopped.append_right {e : Error} (h : Stopped o pre post ms e)
    (pre' : List (Position × Hypertext.Node))
    (hright : ∀ first ∈ pre, ∀ m ∈ post', m.1.leftOf first.1 = false) :
    Stopped o (pre ++ pre') (post ++ post') ms e := by
  cases e with
  | component target key cause =>
      obtain ⟨front, last, hms, hprefix, hlast⟩ := h
      exact ⟨front, last, hms, hprefix.trans (List.prefix_append post post'), hlast⟩
  | depthExceeded limit =>
      obtain ⟨hlimit, first, hfirst, hplaced, hsucceeds⟩ := h
      have hnone : post'.filter (fun m => m.1.leftOf first.1) = [] := by
        apply List.filter_eq_nil_iff.mpr
        intro m hm
        rw [hright first (List.mem_of_find?_eq_some hfirst) m hm]
        exact Bool.false_ne_true
      refine ⟨hlimit, first, ?_, ?_, hsucceeds⟩
      · rw [firstTooDeep, List.find?_append, ← firstTooDeep, hfirst, Option.some_or]
      · rw [List.filter_append, hnone, List.append_nil, hplaced]

theorem Stopped.of_too_deep {first : Position × Hypertext.Node}
    (hdeep : o.maxDepth < first.1.length)
    (hright : ∀ m ∈ post, m.1.leftOf first.1 = false) :
    Stopped o (first :: pre) post [] (.depthExceeded o.maxDepth) := by
  refine ⟨rfl, first, ?_, ?_, nofun⟩
  · exact List.find?_cons_of_pos (decide_eq_true hdeep)
  · apply Eq.symm
    apply List.filter_eq_nil_iff.mpr
    intro m hm
    rw [hright m hm]
    exact Bool.false_ne_true

theorem placed_cases (m : Placement) (own : Keyed.Node) :
    let result := placed o (keyAt o.keyPrefix m.position) m.node m.node.properties m.content own
    (∃ r, result = .ok r ∧ m.Succeeds o) ∨
      ∃ target key cause, result = .error (.component target key cause) ∧
        m.Fails o target key cause := by
  unfold placed
  cases hfound : o.components.override? m.node with
  | none =>
      refine .inl ⟨own, rfl, ?_⟩
      intro found hsome
      rw [hfound] at hsome
      cases hsome
  | some found =>
      have hinput : (⟨tagOf m.node, m.node.kind?, keyAt o.keyPrefix m.position, m.node.properties,
        m.content, o.factory⟩ : Input) = m.input o := rfl
      dsimp only
      rw [hinput]
      cases houtcome : (found.2 (m.input o)).outcome with
      | ok r =>
          refine .inl ⟨r, rfl, ?_⟩
          intro found' hsome
          rw [hfound] at hsome
          obtain rfl := Option.some.inj hsome
          exact ⟨r, houtcome⟩
      | error cause =>
          exact .inr ⟨_, _, cause, rfl, found, hfound, houtcome, rfl, rfl⟩

/-- An error among the children of a node, which stands before them and is placed after them. -/
theorem Stopped.around {p : Position} {n : Hypertext.Node} {e : Error}
    (hp : p.length ≤ o.maxDepth)
    (h : Stopped o (locatedAll p 0 n.children) (postorderAll p 0 n.children) ms e) :
    Stopped o (located p n) (postorder p n) ms e := by
  have hn : Finished o [(p, n)] [] [] := ⟨rfl, nofun, List.forall_mem_singleton.mpr hp⟩
  have hfront := Stopped.append_left hn h nofun
  have hlast : ∀ first ∈ [(p, n)] ++ locatedAll p 0 n.children, ∀ m ∈ [(p, n)],
      m.1.leftOf first.1 = false := by
    intro first hfirst
    rw [List.singleton_append, ← located_eq] at hfirst
    exact List.forall_mem_singleton.mpr (leftOf_below (suffix_of_mem_located n p hfirst))
  have hstopped := hfront.append_right [] hlast
  rw [List.append_nil] at hstopped
  rw [located_eq, postorder_eq]
  exact hstopped

/-- A node whose children are placed is placed after them. -/
theorem Finished.around {m : Placement} (hp : m.position.length ≤ o.maxDepth)
    (h : Finished o (locatedAll m.position 0 m.node.children)
      (postorderAll m.position 0 m.node.children) ms) (own : Keyed.Node) :
    Reached o (located m.position m.node) (postorder m.position m.node) (ms ++ [m])
      (placed o (keyAt o.keyPrefix m.position) m.node m.node.properties m.content own) := by
  have hplaced : (ms ++ [m]).map Placement.located = postorder m.position m.node := by
    rw [List.map_append, h.inOrder, postorder_eq]
    rfl
  rcases placed_cases m own with ⟨r, hresult, hsucceeds⟩ | ⟨target, key, cause, hresult, hfails⟩
  · rw [hresult]
    refine ⟨hplaced, ?_, ?_⟩
    · exact List.forall_mem_append.mpr ⟨h.succeeded, List.forall_mem_singleton.mpr hsucceeds⟩
    · rw [located_eq]
      exact List.forall_mem_cons.mpr ⟨hp, h.shallow⟩
  · rw [hresult]
    exact ⟨ms, m, rfl, hplaced ▸ List.prefix_rfl, h.succeeded, hfails⟩

/-- Siblings come one after the other, and an error ends the rendering of all. -/
theorem reached_cons {p : Position} {index : Nat} {n : Hypertext.Node}
    {rest : List Hypertext.Node} {x : Except Error Keyed.Node}
    {y : Except Error (List Keyed.Node)}
    (hn : Reached o (located (index :: p) n) (postorder (index :: p) n) ms x)
    (hrest : Reached o (locatedAll p (index + 1) rest) (postorderAll p (index + 1) rest) ms' y) :
    Reached o (locatedAll p index (n :: rest)) (postorderAll p index (n :: rest))
      (ms ++ following x fun _ => ms') (do return (← x) :: (← y)) := by
  rw [locatedAll, postorderAll]
  cases x with
  | error e =>
      rw [following, List.append_nil]
      apply Stopped.append_right hn
      intro first hfirst m hm
      exact (leftOf_of_sibling (suffix_of_mem_located n _ hfirst)
        (suffix_of_mem_postorderAll hm)).2
  | ok r =>
      cases y with
      | ok others => exact Finished.append hn hrest
      | error e =>
          apply Stopped.append_left hn hrest
          intro m hm first hfirst
          exact (leftOf_of_sibling (suffix_of_mem_postorder hm)
            (suffix_of_mem_locatedAll rest p _ hfirst)).1

theorem reached_placementsAll {ns : List Hypertext.Node}
    (h : ∀ n ∈ ns, ∀ p : Position, p.length ≤ o.maxDepth →
      Reached o (located p n) (postorder p n) (placements o p n) (rendered o p n))
    (p : Position) (index : Nat) :
    Reached o (locatedAll p index ns) (postorderAll p index ns) (placementsAll o p index ns)
      (renderedAll o p index ns) := by
  induction ns generalizing index with
  | nil => exact ⟨rfl, nofun, nofun⟩
  | cons n rest ih =>
      rw [List.forall_mem_cons] at h
      rw [placementsAll, renderedAll]
      split
      next hroom => exact reached_cons (h.1 (index :: p) hroom) (ih h.2 (index + 1))
      next hroom =>
        rw [locatedAll, postorderAll, located_eq, List.cons_append]
        apply Stopped.of_too_deep
        · rw [List.length_cons]
          omega
        · intro m hm
          rcases List.mem_append.mp hm with hm | hm
          · exact leftOf_above (suffix_of_mem_postorder hm)
          · exact (leftOf_of_sibling List.suffix_rfl (suffix_of_mem_postorderAll hm)).2

/-- The nodes of a tree are placed as far as its rendering comes. -/
theorem reached_placements (n : Hypertext.Node) (p : Position) (hp : p.length ≤ o.maxDepth) :
    Reached o (located p n) (postorder p n) (placements o p n) (rendered o p n) := by
  induction n using Hypertext.Node.induction_children generalizing p with
  | step n ih =>
      have hall := reached_placementsAll ih p 0
      rw [placements_eq, rendered_eq]
      cases hchildren : renderedAll o p 0 n.children with
      | ok children =>
          rw [hchildren] at hall
          exact Finished.around (m := ⟨p, n, contentOf n children⟩) hp hall _
      | error e =>
          rw [hchildren] at hall
          rw [following, List.append_nil]
          exact Stopped.around hp hall

end Render

end KeyedMarkup
