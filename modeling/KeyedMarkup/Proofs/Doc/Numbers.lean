import KeyedMarkup.Proofs.Doc.Canonical
import KeyedMarkup.Proofs.Doc.Built
import KeyedMarkup.Proofs.Number.Clamp

/-!
# Numbers of a built tree

The levels of headings and the first numbers of lists are whole numbers, and a builder puts no other
numbers into a tree. None of them is a NaN.
-/

namespace KeyedMarkup

namespace Dict

def HasNoNaN (ps : Properties) : Prop := ∀ x ∈ ps.numbers, x.isNaN = false

theorem hasNoNaN_of_entries {ps : Properties}
    (h : ∀ e ∈ ps.entries, ∀ x, e.2 = .number x → x.isNaN = false) : ps.HasNoNaN := by
  intro x hx
  obtain ⟨⟨name, value⟩, he, hvalue⟩ := List.mem_filterMap.mp hx
  apply h _ he x
  cases value with
  | number y => rw [Option.some.inj hvalue]
  | _ => cases hvalue

theorem hasNoNaN_empty : HasNoNaN .empty := hasNoNaN_of_entries nofun

theorem HasNoNaN.insert {ps : Properties} (h : ps.HasNoNaN) (name : String) {value : Property}
    (hvalue : value.number? = none) : HasNoNaN (ps.insert name value) := by
  apply hasNoNaN_of_entries
  rintro ⟨n, v⟩ he x rfl
  have he : (n, .number x) ∈ (ps.insertAll [(name, value)]).entries := he
  rcases mem_insertAll he with hnew | hold
  · obtain ⟨rfl, rfl⟩ := Prod.mk.inj (List.mem_singleton.mp hnew)
    cases hvalue
  · exact h x (List.mem_filterMap.mpr ⟨_, hold, rfl⟩)

end Dict

namespace Doc

def Node.HasNoNaN (n : Node) : Prop := ∀ x ∈ n.numbers, x.isNaN = false

theorem Node.hasNoNaN_iff {n : Node} :
    n.HasNoNaN ↔ n.properties.HasNoNaN ∧ ∀ c ∈ n.children, c.HasNoNaN := by
  constructor
  · intro h
    constructor
    · intro x hx
      exact h x (mem_numbers.mpr (.inl hx))
    · intro c hc x hx
      exact h x (mem_numbers.mpr (.inr ⟨c, hc, hx⟩))
  · intro ⟨hown, hchildren⟩ x hx
    rcases mem_numbers.mp hx with hx | ⟨c, hc, hx⟩
    · exact hown x hx
    · exact hchildren c hc x hx

theorem Node.hasNoNaN_of_childless {n : Node} (hchildren : n.children = [])
    (h : n.properties.HasNoNaN) : n.HasNoNaN := by
  rw [hasNoNaN_iff, hchildren]
  exact ⟨h, nofun⟩

theorem Tag.Gives.hasNoNaN {ps : Properties} (h : Gives ps) : ps.HasNoNaN := by
  apply Dict.hasNoNaN_of_entries
  intro e he x hx
  obtain ⟨n, rfl⟩ := (h e he).whole x hx
  exact Binary64.isNaN_ofNat n

structure OpenNode.HasNoNaN (o : OpenNode) : Prop where
  own : o.properties.HasNoNaN
  latest : ∀ c ∈ o.latest, c.HasNoNaN

namespace OpenNode

variable {o : OpenNode}

theorem HasNoNaN.add (h : o.HasNoNaN) {n : Node} (hn : n.HasNoNaN) : (o.add n).HasNoNaN :=
  ⟨h.own, List.forall_mem_cons.mpr ⟨hn, h.latest⟩⟩

theorem HasNoNaN.addLeaf (h : o.HasNoNaN) (kind : Kind) (s : String) :
    (o.add (.leaf kind s)).HasNoNaN :=
  h.add (Node.hasNoNaN_of_childless rfl Dict.hasNoNaN_empty)

theorem HasNoNaN.addText (h : o.HasNoNaN) (s : String) : (o.addText s).HasNoNaN := by
  unfold OpenNode.addText
  split
  · exact ⟨h.own, h.latest⟩
  · split
    next ps v cs rest hlatest =>
      have hall := h.latest
      rw [hlatest, List.forall_mem_cons] at hall
      obtain ⟨hps, hcs⟩ := Node.hasNoNaN_iff.mp hall.1
      have htext : Node.HasNoNaN ⟨.text, ps, some (v ++ s), cs⟩ :=
        Node.hasNoNaN_iff.mpr ⟨hps, hcs⟩
      exact ⟨h.own, List.forall_mem_cons.mpr ⟨htext, hall.2⟩⟩
    next => exact h.addLeaf .text s

theorem HasNoNaN.addHtml (h : o.HasNoNaN) (s : String) : (o.addHtml s).HasNoNaN := by
  unfold OpenNode.addHtml
  split
  · exact ⟨h.own, h.latest⟩
  · exact h.addLeaf .html s

theorem HasNoNaN.node (h : o.HasNoNaN) (value : Option String) :
    Node.HasNoNaN { o.node with value } :=
  Node.hasNoNaN_iff.mpr ⟨h.own, fun c hc => h.latest c (List.mem_reverse.mp hc)⟩

theorem HasNoNaN.close (h : o.HasNoNaN) : o.close.HasNoNaN := by
  unfold OpenNode.close
  split
  · exact h.node _
  · exact h.node _
  · exact Node.hasNoNaN_of_childless rfl (h.own.insert "alt" rfl)
  · exact h.node o.value

end OpenNode

namespace Builder

def HasNoNaN (b : Builder) : Prop := ∀ o ∈ b.stack, o.HasNoNaN

variable {b : Builder}

theorem HasNoNaN.withTop (h : b.HasNoNaN) {top : OpenNode} (htop : top.HasNoNaN) :
    HasNoNaN { b with top } :=
  List.forall_mem_cons.mpr ⟨htop, (List.forall_mem_cons.mp h).2⟩

theorem HasNoNaN.openTag (h : b.HasNoNaN) (tag : Tag) : (b.openTag tag).HasNoNaN := by
  obtain ⟨properties, columns, hgives, hopen⟩ := b.exists_openTag_eq tag
  rw [hopen]
  exact List.forall_mem_cons.mpr ⟨⟨hgives.hasNoNaN, nofun⟩, h⟩

theorem HasNoNaN.stop (h : b.HasNoNaN) : b.stop.HasNoNaN := by
  obtain ⟨top, below, columns⟩ := b
  cases below with
  | nil => exact h
  | cons outer below =>
      rw [HasNoNaN, stack, List.forall_mem_cons, List.forall_mem_cons] at h
      exact List.forall_mem_cons.mpr ⟨h.2.1.add h.1.close, h.2.2⟩

theorem hasNoNaN_mark {checked : Bool} {os : List OpenNode} (h : ∀ o ∈ os, o.HasNoNaN) :
    ∀ o ∈ mark checked os, o.HasNoNaN := by
  induction os with
  | nil => exact h
  | cons o os ih =>
      rw [List.forall_mem_cons] at h
      rw [mark]
      split
      · exact List.forall_mem_cons.mpr ⟨⟨h.1.own.insert "checked" rfl, h.1.latest⟩, h.2⟩
      · exact List.forall_mem_cons.mpr ⟨h.1, ih h.2⟩

theorem HasNoNaN.step (h : b.HasNoNaN) (e : Event) : (b.step e).HasNoNaN := by
  have htop : b.top.HasNoNaN := h _ List.mem_cons_self
  have hempty {n : Node} (hchildren : n.children = []) (hproperties : n.properties = .empty) :
      n.HasNoNaN := Node.hasNoNaN_of_childless hchildren (hproperties ▸ Dict.hasNoNaN_empty)
  cases e with
  | start tag => exact h.openTag tag
  | stop => exact h.stop
  | text s => exact h.withTop (htop.addText s)
  | softBreak => exact h.withTop (htop.addText "\n")
  | html s => exact h.withTop (htop.addHtml s)
  | inlineHtml s => exact h.withTop (htop.addHtml s)
  | code s => exact h.withTop (htop.addLeaf .inlineCode s)
  | inlineMath s => exact h.withTop (htop.addLeaf (.other "inlineMath") s)
  | displayMath s => exact h.withTop (htop.addLeaf (.other "math") s)
  | footnoteReference label =>
      exact h.withTop (htop.add (Node.hasNoNaN_of_childless rfl
        (Dict.hasNoNaN_empty.insert "label" rfl)))
  | hardBreak => exact h.withTop (htop.add (hempty rfl rfl))
  | rule => exact h.withTop (htop.add (hempty rfl rfl))
  | task checked =>
      show ∀ o ∈ (b.task checked).stack, o.HasNoNaN
      rw [stack_task]
      exact hasNoNaN_mark h

theorem HasNoNaN.run (h : b.HasNoNaN) (events : List Event) : (b.run events).HasNoNaN := by
  induction events generalizing b with
  | nil => exact h
  | cons e events ih => exact ih (h.step e)

theorem HasNoNaN.finish (h : b.HasNoNaN) : b.finish.HasNoNaN := by
  obtain ⟨top, below, columns⟩ := b
  induction below generalizing top columns with
  | nil => exact OpenNode.HasNoNaN.node (h top List.mem_cons_self) top.value
  | cons outer below ih => exact ih (outer.add top.close) _ h.stop

end Builder

theorem Node.hasNoNaN_ofEvents (events : List Event) : (ofEvents events).HasNoNaN := by
  have hstart : Builder.start.HasNoNaN :=
    List.forall_mem_singleton.mpr ⟨Dict.hasNoNaN_empty, nofun⟩
  exact (hstart.run events).finish

end Doc

end KeyedMarkup
