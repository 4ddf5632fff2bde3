/-!
# Position keys

A trail stands at a position of a tree and knows its key: the key prefix followed by the sibling
index of every level below the root, each after a hyphen. It descends to a child and ascends to
the parent, and it does not descend below its limit. There is one text for the key of the position
where it stands: a descent writes to the end of it, and an ascent cuts it off again.
-/

namespace KeyedMarkup.Render

/-- The key of a position, the number of its bytes before each descent on the way there, nearest
first, and the deepest level that may be entered. -/
structure Trail where
  key : String
  starts : List Nat
  limit : Nat
deriving DecidableEq, Inhabited

namespace Trail

/-- The trail at the root. -/
def root (keyPrefix : String) (limit : Nat) : Trail := ⟨keyPrefix, [], limit⟩

def depth (t : Trail) : Nat := t.starts.length

/-- The trail at a child, unless it is below the limit. -/
def descend? (t : Trail) (index : Nat) : Option Trail :=
  if t.depth < t.limit then
    some ⟨t.key ++ "-" ++ toString index, t.key.utf8ByteSize :: t.starts, t.limit⟩
  else none

/-- The trail at the parent; the root is its own. -/
def ascend (t : Trail) : Trail :=
  match t.starts with
  | [] => t
  | start :: starts => ⟨String.Pos.Raw.extract t.key 0 ⟨start⟩, starts, t.limit⟩

end Trail

end KeyedMarkup.Render
