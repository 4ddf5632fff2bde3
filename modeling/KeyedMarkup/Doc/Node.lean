import KeyedMarkup.Doc.Kind
import KeyedMarkup.Property

/-!
# Document trees

A node has a kind, properties, a text of its own if it is a leaf such as `text` or `code`, and
children. Depth and text content are computed with a list of pending nodes, so that trees of any
depth can be measured before a recursive pass runs over them.
-/

namespace KeyedMarkup.Doc

structure Node where
  kind : Kind
  properties : Properties
  value : Option String
  children : List Node
deriving Inhabited

namespace Node

def parent (kind : Kind) (children : List Node) : Node := ⟨kind, .empty, none, children⟩

def leaf (kind : Kind) (value : String) : Node := ⟨kind, .empty, some value, []⟩

def withProperty (n : Node) (name : String) (value : Property) : Node :=
  { n with properties := n.properties.insert name value }

def property? (n : Node) (name : String) : Option Property := n.properties.get? name

/-- A leaf has a text of its own and no children. -/
def isLeaf (n : Node) : Bool := n.value.isSome && n.children.isEmpty

/-- The text of the node itself, empty if it has none. -/
def ownText (n : Node) : String := n.value.getD ""

mutual

/-- The number of nodes of a tree. -/
def size : Node → Nat
  | ⟨_, _, _, children⟩ => sizeAll children + 1

def sizeAll : List Node → Nat
  | [] => 0
  | n :: rest => n.size + sizeAll rest

end

theorem size_eq (n : Node) : n.size = sizeAll n.children + 1 := by
  cases n
  rfl

theorem sizeAll_append (xs ys : List Node) : sizeAll (xs ++ ys) = sizeAll xs + sizeAll ys := by
  induction xs with
  | nil => simp [sizeAll]
  | cons x xs ih => simp [sizeAll, ih, Nat.add_assoc]

theorem sizeAll_reverse (ns : List Node) : sizeAll ns.reverse = sizeAll ns := by
  induction ns with
  | nil => rfl
  | cons n ns ih => simp [sizeAll_append, sizeAll, ih, Nat.add_comm]

/-- The greatest level met when the pending nodes, each at its level, are taken with all that is
below them, the last child of a node first. -/
def deepest (pending : List (Node × Nat)) (level : Nat) : Nat :=
  match pending with
  | [] => level
  | (n, l) :: rest => deepest ((n.children.map (·, l + 1)).reverse ++ rest) (max level l)
termination_by sizeAll (pending.map (·.1))
decreasing_by
  simp [sizeAll_append, sizeAll_reverse, sizeAll, size_eq, List.map_map, Function.comp_def]

/-- The number of levels below a node. -/
def depth (n : Node) : Nat := deepest [(n, 0)] 0

/-- The texts of the pending nodes and of all that is below them, in document order. -/
def gather (pending : List Node) (text : String) : String :=
  match pending with
  | [] => text
  | n :: rest => gather (n.children ++ rest) (text ++ n.ownText)
termination_by sizeAll pending
decreasing_by simp [sizeAll_append, sizeAll, size_eq]

/-- The text of a node followed by the texts of its descendants. -/
def textContent (n : Node) : String := gather [n] ""

/-- The pending nodes and all that is below them, in document order. -/
def listing (pending : List Node) (seen : Array Node) : Array Node :=
  match pending with
  | [] => seen
  | n :: rest => listing (n.children ++ rest) (seen.push n)
termination_by sizeAll pending
decreasing_by simp [sizeAll_append, sizeAll, size_eq]

/-- All nodes of a tree in document order, parents first. -/
def nodes (n : Node) : List Node := (listing [n] #[]).toList

end Node

end KeyedMarkup.Doc
