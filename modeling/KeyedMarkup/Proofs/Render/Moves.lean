import KeyedMarkup.Proofs.Render.Keys

/-!
# A trail is a stack of indices

Whatever moves a trail makes, it stands at the position that a stack of indices has reached by the
same moves: a descent puts an index on the stack while there is room below the limit, and an ascent
takes one off. All that a trail holds, the byte counts included, can be told from the stack, and
the stack can be told from the key.
-/

namespace KeyedMarkup.Render

inductive Move where
  | descend (index : Nat)
  | ascend
deriving DecidableEq

namespace Position

/-- The stack with one more index, unless it holds as many as it may. -/
def push? (limit : Nat) (p : Position) (index : Nat) : Option Position :=
  if p.length < limit then some (index :: p) else none

/-- The stack after a move. What is refused changes nothing, and an empty stack stays empty. -/
def move (limit : Nat) (p : Position) : Move → Position
  | .descend index => (p.push? limit index).getD p
  | .ascend => p.tail

/-- The stack that some moves lead to, the first index last. -/
def reached (limit : Nat) (moves : List Move) : Position := moves.foldl (move limit) []

theorem length_move_le {limit : Nat} {p : Position} (hp : p.length ≤ limit) (m : Move) :
    (p.move limit m).length ≤ limit := by
  cases m with
  | descend index =>
      rw [move, push?]
      split
      next hroom => exact hroom
      next => exact hp
  | ascend =>
      rw [move, List.length_tail]
      exact Nat.le_trans (Nat.sub_le _ _) hp

theorem length_reached_le (limit : Nat) (moves : List Move) :
    (reached limit moves).length ≤ limit := by
  apply List.foldlRecOn (motive := fun p : Position => p.length ≤ limit) moves (move limit)
  · exact Nat.zero_le limit
  · exact fun _ hp m _ => length_move_le hp m

end Position

namespace Trail

/-- The trail after a move; a descent that fails leaves it where it is. -/
def move (t : Trail) : Move → Trail
  | .descend index => (t.descend? index).getD t
  | .ascend => t.ascend

def moveAll (t : Trail) (moves : List Move) : Trail := moves.foldl move t

variable (keyPrefix : String) (limit : Nat)

theorem descend?_at_eq_map (p : Position) (index : Nat) :
    (Trail.at keyPrefix limit p).descend? index =
      (p.push? limit index).map (Trail.at keyPrefix limit) := by
  rw [descend?_at, Position.push?]
  split
  · rfl
  · rfl

theorem move_at (p : Position) (m : Move) :
    (Trail.at keyPrefix limit p).move m = Trail.at keyPrefix limit (p.move limit m) := by
  cases m with
  | descend index =>
      rw [move, descend?_at_eq_map, Position.move]
      cases p.push? limit index <;> rfl
  | ascend =>
      cases p with
      | nil => rfl
      | cons index up => exact ascend_at keyPrefix limit up index

theorem moveAll_at (p : Position) (moves : List Move) :
    (Trail.at keyPrefix limit p).moveAll moves =
      Trail.at keyPrefix limit (moves.foldl (Position.move limit) p) := by
  induction moves generalizing p with
  | nil => rfl
  | cons m moves ih =>
      calc
        (Trail.at keyPrefix limit p).moveAll (m :: moves)
        _ = (Trail.at keyPrefix limit (p.move limit m)).moveAll moves := by rw [← move_at]; rfl
        _ = Trail.at keyPrefix limit ((m :: moves).foldl (Position.move limit) p) := ih _

/-- After any moves from the root a trail has the key and the depth of the stack that the same
moves lead to, and it descends exactly if the stack has room. Two trails with one prefix have the
same key exactly if their stacks are the same, also under different limits. -/
theorem moveAll_root (moves : List Move) :
    let t := (root keyPrefix limit).moveAll moves
    let p := Position.reached limit moves
    t.key = p.reverse.foldl (fun key index => key ++ "-" ++ toString index) keyPrefix ∧
    t.depth = p.length ∧ p.length ≤ limit ∧
    (∀ index, (t.descend? index = none ↔ p.push? limit index = none) ∧
      (t.descend? index = none → t.move (.descend index) = t)) ∧
    ∀ limit' moves', t.key = ((root keyPrefix limit').moveAll moves').key ↔
      p = Position.reached limit' moves' := by
  intro t p
  have hat (limit : Nat) (moves : List Move) : (root keyPrefix limit).moveAll moves =
      Trail.at keyPrefix limit (Position.reached limit moves) :=
    moveAll_at keyPrefix limit [] moves
  have ht : t = Trail.at keyPrefix limit p := hat limit moves
  refine ⟨?_, ?_, Position.length_reached_le limit moves, fun index => ⟨?_, ?_⟩, ?_⟩
  · rw [← keyAt_reverse, List.reverse_reverse, ht]
    rfl
  · rw [ht, depth_at]
  · rw [ht, descend?_at_eq_map, Option.map_eq_none_iff]
  · intro hrefused
    rw [move, hrefused, Option.getD_none]
  · intro limit' moves'
    rw [ht, hat limit' moves']
    exact (keyAt_injective keyPrefix).eq_iff

example : ((root "ñ" 2).moveAll [.descend 1, .descend 11, .descend 3, .ascend, .descend 0]).key =
    "ñ-1-0" := by decide +kernel

end Trail

end KeyedMarkup.Render
