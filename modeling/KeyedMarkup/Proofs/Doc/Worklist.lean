import KeyedMarkup.Proofs.Doc.Traversal

/-!
# Loops over pending nodes

The loops that find depth and text hold a list of pending nodes. Each turn takes one node from it
and puts the children of this node on it, in one loop with the last child on top and in the other
with the first one. Whatever is pending, the nodes that were taken and those that are below the
pending ones make up the same nodes after every turn, so a loop that has come to its end has taken
every node of the tree exactly once.
-/

namespace KeyedMarkup.Doc

/-- Whether a loop over pending items, the next one first, takes some items in their order and ends
with a result. A turn takes one item, updates the result by it, and puts the items that it leads to
before the others. -/
inductive Drains {ι β : Type} (push : ι → List ι) (visit : β → ι → β) :
    List ι → β → List ι → β → Prop where
  | done (result : β) : Drains push visit [] result [] result
  | turn {item : ι} {pending taken : List ι} {result final : β}
      (h : Drains push visit (push item ++ pending) (visit result item) taken final) :
      Drains push visit (item :: pending) result (item :: taken) final

theorem Drains.unique {ι β : Type} {push : ι → List ι} {visit : β → ι → β} {pending taken : List ι}
    {result final : β} (h : Drains push visit pending result taken final) {taken' : List ι}
    {final' : β} : Drains push visit pending result taken' final' ↔
      taken' = taken ∧ final' = final := by
  constructor
  · intro h'
    induction h generalizing taken' with
    | done result =>
        cases h'
        exact ⟨rfl, rfl⟩
    | turn _ ih =>
        cases h' with
        | turn h' =>
            obtain ⟨rfl, rfl⟩ := ih h'
            exact ⟨rfl, rfl⟩
  · rintro ⟨rfl, rfl⟩
    exact h

namespace Node

/-- Siblings with their numbers in document order, by which nodes that look alike are told apart.
The number of the first one is given. -/
def numbered (k : Nat) : List Node → List (Node × Nat)
  | [] => []
  | n :: rest => (n, k) :: numbered (k + n.size) rest

def branches (i : Node × Nat) : List (Node × Nat) := numbered (i.2 + 1) i.1.children

def numberedNodes (i : Node × Nat) : List (Node × Nat) := i.1.preorder.zipIdx i.2

theorem map_fst_numbered (k : Nat) (ns : List Node) : (numbered k ns).map (·.1) = ns := by
  induction ns generalizing k with
  | nil => rfl
  | cons n rest ih => rw [numbered, List.map_cons, ih]

mutual

theorem length_preorder (n : Node) : n.preorder.length = n.size := by
  obtain ⟨kind, properties, value, children⟩ := n
  rw [preorder, size, List.length_cons, length_preorderAll children]

theorem length_preorderAll (ns : List Node) : (preorderAll ns).length = sizeAll ns := by
  cases ns with
  | nil => rfl
  | cons n rest =>
      rw [preorderAll, sizeAll, List.length_append, length_preorder n, length_preorderAll rest]

end

theorem flatMap_numbered (k : Nat) (ns : List Node) :
    (numbered k ns).flatMap numberedNodes = (preorderAll ns).zipIdx k := by
  induction ns generalizing k with
  | nil => rfl
  | cons n rest ih =>
      rw [numbered, List.flatMap_cons, ih, preorderAll, List.zipIdx_append, length_preorder,
        numberedNodes, Nat.add_comm]

theorem numberedNodes_eq (i : Node × Nat) :
    numberedNodes i = i :: (branches i).flatMap numberedNodes := by
  obtain ⟨⟨kind, properties, value, children⟩, k⟩ := i
  rw [branches, flatMap_numbered, numberedNodes, preorder, List.zipIdx_cons]

section

variable {ι β : Type} {push : ι → List ι} {node : ι → Node × Nat}

/-- The node that a turn takes and all that is below the nodes that it leads to are the nodes that
were there before, if these are its children in any order. -/
theorem perm_push (hpush : ∀ i, ((push i).map node).Perm (branches (node i))) (item : ι)
    (pending : List ι) :
    (node item :: ((push item ++ pending).map node).flatMap numberedNodes).Perm
      (((item :: pending).map node).flatMap numberedNodes) := by
  rw [List.map_append, List.flatMap_append, List.map_cons, List.flatMap_cons,
    numberedNodes_eq (node item), List.cons_append, List.perm_cons]
  exact ((hpush item).flatMap_right numberedNodes).append_right _

theorem exists_drains (hpush : ∀ i, ((push i).map node).Perm (branches (node i)))
    (visit : β → ι → β) (pending : List ι) (result : β) :
    ∃ taken final, Drains push visit pending result taken final := by
  match pending with
  | [] => exact ⟨[], result, .done result⟩
  | item :: pending =>
      obtain ⟨taken, final, h⟩ :=
        exists_drains hpush visit (push item ++ pending) (visit result item)
      exact ⟨item :: taken, final, .turn h⟩
termination_by ((pending.map node).flatMap numberedNodes).length
decreasing_by
  rw [← (perm_push hpush item pending).length_eq, List.length_cons]
  exact Nat.lt_succ_self _

/-- What a loop has taken when it ends are the pending nodes and all that is below them, each of
them once. -/
theorem perm_of_drains (hpush : ∀ i, ((push i).map node).Perm (branches (node i)))
    {visit : β → ι → β} {pending taken : List ι} {result final : β}
    (h : Drains push visit pending result taken final) :
    (taken.map node).Perm ((pending.map node).flatMap numberedNodes) := by
  induction h with
  | done => exact .refl _
  | turn _ ih => exact (ih.cons _).trans (perm_push hpush _ _)

end

/-- What a node leads to in the loop of `depth`: its children one level below it, the last one on
top. -/
def pushLevels (i : (Node × Nat) × Nat) : List ((Node × Nat) × Nat) :=
  ((branches i.1).map (·, i.2 + 1)).reverse

/-- The loop of `depth`, with the numbers of the nodes. -/
abbrev DrainsLevels :=
  Drains pushLevels fun (level : Nat) (i : (Node × Nat) × Nat) => max level i.2

/-- The loop of `textContent`, with the numbers of the nodes. The first child is on top. -/
abbrev DrainsTexts := Drains branches fun (text : String) (i : Node × Nat) => text ++ i.1.ownText

theorem perm_pushLevels (i : (Node × Nat) × Nat) :
    ((pushLevels i).map (·.1)).Perm (branches i.1) := by
  have hsame : (branches i.1).map ((·.1) ∘ (·, i.2 + 1)) = branches i.1 := List.map_id _
  rw [pushLevels, List.map_reverse, List.map_map, hsame]
  exact List.reverse_perm _

theorem eq_deepest_of_drains {pending taken : List ((Node × Nat) × Nat)} {level final : Nat}
    (h : DrainsLevels pending level taken final) :
    final = deepest (pending.map fun i => (i.1.1, i.2)) level := by
  induction h with
  | done level => rw [List.map_nil, deepest]
  | @turn item pending _ level _ _ ih =>
      obtain ⟨⟨n, k⟩, l⟩ := item
      have hpush : (pushLevels ((n, k), l)).map (fun i => (i.1.1, i.2)) =
          (n.children.map (·, l + 1)).reverse := by
        rw [pushLevels, List.map_reverse, List.map_map, ← map_fst_numbered (k + 1) n.children,
          List.map_map]
        rfl
      rw [ih, List.map_append, hpush, List.map_cons, deepest]

theorem eq_gather_of_drains {pending taken : List (Node × Nat)} {text final : String}
    (h : DrainsTexts pending text taken final) : final = gather (pending.map (·.1)) text := by
  induction h with
  | done text => rw [List.map_nil, gather]
  | @turn item pending _ text _ _ ih =>
      rw [ih, List.map_append, branches, map_fst_numbered, List.map_cons, gather]

/-- The loops of `depth` and `textContent` compute what a recursion through the tree does, and both
take every node of the tree from the pending ones exactly once. -/
theorem drains_depth_and_textContent (n : Node) :
    n.depth = (match (n.children.map depth).max? with | none => 0 | some d => 1 + d) ∧
      n.textContent = n.ownText ++ String.join (n.children.map textContent) ∧
      (∃ taken, (∀ taken' level, DrainsLevels [((n, 0), 0)] 0 taken' level ↔
          taken' = taken ∧ level = n.depth) ∧
        (taken.map (·.1)).Perm n.preorder.zipIdx) ∧
      ∃ taken, (∀ taken' text, DrainsTexts [(n, 0)] "" taken' text ↔
          taken' = taken ∧ text = n.textContent) ∧
        taken.Perm n.preorder.zipIdx := by
  refine ⟨depth_eq n, textContent_eq n, ?_, ?_⟩
  · obtain ⟨taken, level, h⟩ := exists_drains perm_pushLevels _ [((n, 0), 0)] 0
    obtain rfl : level = n.depth := eq_deepest_of_drains h
    have hperm := perm_of_drains perm_pushLevels h
    rw [List.map_singleton, List.flatMap_singleton] at hperm
    exact ⟨taken, fun _ _ => h.unique, hperm⟩
  · have hpush (i : Node × Nat) : ((branches i).map id).Perm (branches i) := by
      rw [List.map_id]
    obtain ⟨taken, text, h⟩ := exists_drains hpush _ [(n, 0)] ""
    obtain rfl : text = n.textContent := eq_gather_of_drains h
    have hperm := perm_of_drains hpush h
    rw [List.map_id, List.map_singleton, List.flatMap_singleton] at hperm
    exact ⟨taken, fun _ _ => h.unique, hperm⟩

end Node

end KeyedMarkup.Doc
