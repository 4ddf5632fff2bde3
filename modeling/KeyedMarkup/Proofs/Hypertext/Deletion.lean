import KeyedMarkup.Proofs.Hypertext.Conversion
import KeyedMarkup.Proofs.Hypertext.Permission

/-!
# Deleting texts and raw HTML

Trees are compared by what is left of them after nodes of some sort are deleted wherever they stand.
Line breaks between blocks are such nodes, and raw HTML is. It makes no difference whether breaks
are deleted before or after a tree is sanitized.
-/

namespace KeyedMarkup.Hypertext.Node

/-- Whether a node is a text of one line break and nothing else. -/
def isBreak : Node → Bool
  | .text value => value == "\n"
  | _ => false

def isRaw : Node → Bool
  | .raw _ => true
  | _ => false

variable (gone : Node → Bool)

mutual

/-- The tree without the nodes below it that a test picks out. -/
def without : Node → Node
  | .root children => .root (withoutAll children)
  | .element ⟨tag, properties, children, kind⟩ =>
      .element ⟨tag, properties, withoutAll children, kind⟩
  | .text value => .text value
  | .raw value => .raw value

def withoutAll : List Node → List Node
  | [] => []
  | n :: rest => if gone n then withoutAll rest else n.without :: withoutAll rest

end

theorem withoutAll_append (ms ns : List Node) :
    withoutAll gone (ms ++ ns) = withoutAll gone ms ++ withoutAll gone ns := by
  induction ms with
  | nil => rfl
  | cons m ms ih =>
      rw [List.cons_append, withoutAll, withoutAll, ih]
      split <;> rfl

theorem withoutAll_cons (n : Node) (rest : List Node) :
    withoutAll gone (n :: rest) = withoutAll gone [n] ++ withoutAll gone rest :=
  withoutAll_append gone [n] rest

variable {gone}

theorem withoutAll_of_gone {n : Node} (h : gone n = true) : withoutAll gone [n] = [] := by
  rw [withoutAll, if_pos h, withoutAll]

theorem withoutAll_of_not_gone {n : Node} (h : gone n = false) :
    withoutAll gone [n] = [n.without gone] := by
  rw [withoutAll, h, if_neg Bool.false_ne_true, withoutAll]

theorem withoutAll_spaced (hbreak : gone (.text "\n") = true) {ms ns : List Node}
    (h : Spaced ms ns) : withoutAll gone ms = withoutAll gone ns := by
  induction h with
  | nil => rfl
  | keep n _ ih => rw [withoutAll_cons, ih, ← withoutAll_cons]
  | newline _ ih => rw [withoutAll_cons, ih, withoutAll_of_gone hbreak, List.nil_append]

def isBreakOrRaw (n : Node) : Bool := n.isBreak || n.isRaw

variable (s : Schema)

mutual

theorem withoutAll_clean (n : Node) :
    withoutAll isBreak (clean s n) = cleanAll s (withoutAll isBreakOrRaw [n]) := by
  cases n with
  | root children =>
      rw [withoutAll_of_not_gone rfl, cleanAll_singleton, without, clean, clean]
      exact withoutAll_cleanAll children
  | text value =>
      rw [clean]
      cases hbreak : isBreak (.text value) with
      | true =>
          rw [withoutAll_of_gone hbreak, withoutAll_of_gone (by rw [isBreakOrRaw, hbreak]; rfl)]
          rfl
      | false =>
          rw [withoutAll_of_not_gone hbreak,
            withoutAll_of_not_gone (by rw [isBreakOrRaw, hbreak]; rfl)]
          rfl
  | raw value => rw [clean, withoutAll_of_gone rfl, withoutAll, cleanAll]
  | element e =>
      obtain ⟨tag, properties, children, kind⟩ := e
      have hchildren := withoutAll_cleanAll children
      rw [withoutAll_of_not_gone rfl, cleanAll_singleton, without, clean, clean]
      split
      · rfl
      · split
        · rw [withoutAll_of_not_gone rfl, without, hchildren]
        · exact hchildren

/-- What is left of a sanitized tree without breaks is what sanitizing leaves of the tree without
breaks and raw HTML. -/
theorem withoutAll_cleanAll (ns : List Node) :
    withoutAll isBreak (cleanAll s ns) = cleanAll s (withoutAll isBreakOrRaw ns) := by
  cases ns with
  | nil => rfl
  | cons n rest =>
      rw [cleanAll, withoutAll_append, withoutAll_clean n, withoutAll_cleanAll rest,
        ← cleanAll_append, ← withoutAll_cons]

end

end KeyedMarkup.Hypertext.Node
