import KeyedMarkup.Doc.Node

/-!
# Traversals of a document

Depth, nodes and text of a document are found with a list of pending nodes. All follow the form of
the tree: a pending node is taken up with all that is below it before the next one, so the depth is
the height of the tree, the nodes are those of a recursion through it, and the text is that of the
node itself followed by the texts of its children.
-/

namespace KeyedMarkup.Doc.Node

mutual

def height : Node → Nat
  | ⟨_, _, _, children⟩ => heightAll children

def heightAll : List Node → Nat
  | [] => 0
  | n :: rest => max (n.height + 1) (heightAll rest)

end

theorem foldl_siblings (ns : List Node) (l : Nat) {level : Nat} (hlevel : l ≤ level) :
    (ns.map (·, l + 1)).reverse.foldl (fun met i => max met (i.2 + i.1.height)) level =
      max level (l + heightAll ns) := by
  induction ns with
  | nil => exact (Nat.max_eq_left hlevel).symm
  | cons n ns ih =>
      rw [List.map_cons, List.reverse_cons, List.foldl_append, ih, List.foldl_cons, List.foldl_nil,
        heightAll]
      dsimp only
      omega

/-- Whatever is pending, the loop ends with the greatest of the level met so far and the levels
that the pending nodes reach down to. -/
theorem deepest_eq_foldl (pending : List (Node × Nat)) (level : Nat) :
    deepest pending level = pending.foldl (fun met i => max met (i.2 + i.1.height)) level := by
  match pending with
  | [] => rw [deepest, List.foldl_nil]
  | (⟨kind, properties, value, children⟩, l) :: rest =>
      have hsame : max (max level l) (l + heightAll children) =
          max level (l + heightAll children) := by
        omega
      rw [deepest, deepest_eq_foldl, List.foldl_append,
        foldl_siblings children l (Nat.le_max_right _ _), List.foldl_cons, height, hsame]
termination_by sizeAll (pending.map (·.1))
decreasing_by
  simp [sizeAll_append, sizeAll_reverse, sizeAll, size_eq, List.map_map, Function.comp_def]

theorem depth_eq_height (n : Node) : n.depth = n.height := by
  rw [depth, deepest_eq_foldl, List.foldl_cons, List.foldl_nil, Nat.zero_add, Nat.zero_max]

theorem heightAll_eq (ns : List Node) :
    heightAll ns = match (ns.map depth).max? with | none => 0 | some d => 1 + d := by
  induction ns with
  | nil => rfl
  | cons n rest ih =>
      rw [heightAll, ih, List.map_cons, List.max?_cons, depth_eq_height]
      cases (rest.map depth).max? with
      | none => simp [Nat.add_comm]
      | some d =>
          simp only [Option.elim_some]
          omega

theorem depth_eq (n : Node) :
    n.depth = match (n.children.map depth).max? with | none => 0 | some d => 1 + d := by
  obtain ⟨kind, properties, value, children⟩ := n
  rw [depth_eq_height, height, heightAll_eq]

mutual

/-- A node followed by all that is below it, in document order. -/
def preorder : Node → List Node
  | ⟨kind, properties, value, children⟩ =>
      ⟨kind, properties, value, children⟩ :: preorderAll children

def preorderAll : List Node → List Node
  | [] => []
  | n :: rest => n.preorder ++ preorderAll rest

end

mutual

theorem listing_cons (n : Node) (rest : List Node) (seen : Array Node) :
    listing (n :: rest) seen = listing rest (seen ++ n.preorder) := by
  obtain ⟨kind, properties, value, children⟩ := n
  rw [listing, listing_append children, preorder]
  simp

theorem listing_append (ns rest : List Node) (seen : Array Node) :
    listing (ns ++ rest) seen = listing rest (seen ++ preorderAll ns) := by
  cases ns with
  | nil => simp [preorderAll]
  | cons n ns =>
      have happend : seen ++ n.preorder ++ preorderAll ns =
          seen ++ (n.preorder ++ preorderAll ns) := Array.ext' (by simp)
      rw [List.cons_append, listing_cons n, listing_append ns, preorderAll, happend]

end

theorem nodes_eq_preorder (n : Node) : n.nodes = n.preorder := by
  rw [nodes, listing_cons, listing]
  simp

theorem mem_preorderAll {m : Node} {ns : List Node} :
    m ∈ preorderAll ns ↔ ∃ n ∈ ns, m ∈ n.nodes := by
  induction ns with
  | nil => simp [preorderAll]
  | cons n rest ih => simp [preorderAll, ih, nodes_eq_preorder]

theorem mem_nodes {m n : Node} : m ∈ n.nodes ↔ m = n ∨ ∃ c ∈ n.children, m ∈ c.nodes := by
  obtain ⟨kind, properties, value, children⟩ := n
  rw [nodes_eq_preorder, preorder, List.mem_cons, mem_preorderAll]

theorem gather_prepend (before : String) (pending : List Node) (text : String) :
    gather pending (before ++ text) = before ++ gather pending text := by
  fun_induction gather pending text with
  | case1 text => rw [gather]
  | case2 text n rest ih => rw [gather, String.append_assoc, ih]

theorem gather_append (ms ns : List Node) (text : String) :
    gather (ms ++ ns) text = gather ns (gather ms text) := by
  fun_induction gather ms text with
  | case1 text => rw [List.nil_append]
  | case2 text n rest ih => rw [List.cons_append, gather, ← List.append_assoc, ih]

theorem gather_eq_join (ns : List Node) : gather ns "" = String.join (ns.map textContent) := by
  induction ns with
  | nil => rw [gather, List.map_nil, String.join_nil]
  | cons n rest ih =>
      calc
        gather (n :: rest) "" = gather rest (n.textContent ++ "") := by
          rw [String.append_empty, textContent, ← gather_append, List.singleton_append]
        _ = n.textContent ++ String.join (rest.map textContent) := by rw [gather_prepend, ih]
        _ = String.join ((n :: rest).map textContent) := by rw [List.map_cons, String.join_cons]

theorem textContent_eq (n : Node) :
    n.textContent = n.ownText ++ String.join (n.children.map textContent) := by
  rw [textContent, gather, List.append_nil, String.empty_append, ← gather_eq_join,
    ← gather_prepend, String.append_empty]

theorem textContent_of_childless {n : Node} (h : n.children = []) : n.textContent = n.ownText := by
  rw [textContent_eq, h, List.map_nil, String.join_nil, String.append_empty]

end KeyedMarkup.Doc.Node
