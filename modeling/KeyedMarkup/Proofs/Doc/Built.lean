import Mathlib.Data.List.Chain
import KeyedMarkup.Proofs.Doc.Nesting
import KeyedMarkup.Proofs.Doc.Traversal

/-!
# Trees that a builder makes

Any events make a tree, and it is the tree of the events with all that starts and stops matched.
In such a tree there is a root at the top only, texts are merged wherever they meet, and texts,
inline code, breaks and images have no children. An image has its description instead, and no node
but a list item has a check mark.
-/

namespace KeyedMarkup.Doc

/-- The kinds of nodes that no child is added to. -/
def Kind.isChildless : Kind → Bool
  | .text | .inlineCode | .lineBreak | .thematicBreak => true
  | _ => false

def TextsApart (ns : List Node) : Prop := ns.IsChain fun m n => ¬(m.kind = .text ∧ n.kind = .text)

/-- What every node of a built tree is like, as far as it and its children go. -/
structure Node.IsTidy (n : Node) : Prop where
  childless : n.kind.isChildless = true ∨ n.kind = .image → n.children = []
  described : n.kind = .image → ∃ alt, n.property? "alt" = some (.text alt)
  unchecked : n.kind ≠ .listItem → n.property? "checked" = none
  worded : n.kind = .text → n.value.isSome = true
  rootless : ∀ c ∈ n.children, c.kind ≠ .root
  apart : TextsApart n.children

/-- What every open node of a builder is like. All its children are finished. -/
structure OpenNode.IsTidy (o : OpenNode) : Prop where
  parental : o.kind.isChildless = false
  bare : o.kind = .root → o.properties = .empty ∧ o.value = none
  unchecked : o.kind ≠ .listItem → o.properties.get? "checked" = none
  rootless : ∀ c ∈ o.latest, c.kind ≠ .root
  finished : ∀ c ∈ o.latest, ∀ m ∈ c.nodes, m.IsTidy
  apart : TextsApart o.latest

/-- What every builder is like that began with a root. -/
structure Builder.IsTidy (b : Builder) : Prop where
  each : ∀ o ∈ b.stack, o.IsTidy
  grounded : ∃ inner, kinds b.stack = inner ++ [.root] ∧ .root ∉ inner

namespace Tag

theorem isChildless_kind (tag : Tag) : tag.kind.isChildless = false := by
  cases tag <;> rfl

theorem kind_ne_root (tag : Tag) : tag.kind ≠ .root := by
  cases tag <;> exact nofun

/-- Whether an entry of some properties is no check mark, and a whole number if it is a number. -/
structure IsEntry (e : String × Property) : Prop where
  unchecked : e.1 ≠ "checked"
  whole : ∀ x, e.2 = .number x → ∃ n, x = .ofNat n

/-- Whether properties have such entries only. -/
def Gives (ps : Properties) : Prop := ∀ e ∈ ps.entries, IsEntry e

theorem gives_ofList {es : List (String × Property)} (h : ∀ e ∈ es, IsEntry e) :
    Gives (.ofList es) := fun e he => h e (Dict.mem_ofList he)

theorem Gives.get?_checked {ps : Properties} (h : Gives ps) : ps.get? "checked" = none :=
  Dict.get?_eq_none fun e he => (h e he).unchecked

theorem isEntry_text {name : String} (h : name ≠ "checked") (s : String) :
    IsEntry (name, .text s) := ⟨h, nofun⟩

theorem isEntry_flag {name : String} (h : name ≠ "checked") (b : Bool) :
    IsEntry (name, .flag b) := ⟨h, nofun⟩

theorem isEntry_number {name : String} (h : name ≠ "checked") (n : Nat) :
    IsEntry (name, .number (.ofNat n)) := ⟨h, fun _ hx => ⟨n, (Property.number.inj hx).symm⟩⟩

theorem gives_codeProperties (info : Option String) : Gives (codeProperties info) := by
  cases info with
  | none => exact nofun
  | some info =>
      apply gives_ofList
      intro e he
      rcases List.mem_append.mp he with hlang | hmeta
      · split at hlang
        · cases hlang
        · exact List.mem_singleton.mp hlang ▸ isEntry_text (by decide) _
      · split at hmeta
        · cases hmeta
        · cases hmeta
        · exact List.mem_singleton.mp hmeta ▸ isEntry_text (by decide) _

theorem gives_targetProperties (url title : String) : Gives (targetProperties url title) := by
  apply gives_ofList
  intro e he
  rcases List.mem_cons.mp he with rfl | htitle
  · exact isEntry_text (by decide) url
  · split at htitle
    · cases htitle
    · exact List.mem_singleton.mp htitle ▸ isEntry_text (by decide) title

theorem gives_listProperties (start : Option Nat) : Gives (listProperties start) := by
  apply gives_ofList
  intro e he
  rcases List.mem_cons.mp he with rfl | hstart
  · exact isEntry_flag (by decide) _
  · cases start with
    | none => cases hstart
    | some n => exact List.mem_singleton.mp hstart ▸ isEntry_number (by decide) n

theorem gives_properties (tag : Tag) : Gives tag.properties := by
  cases tag with
  | code info => exact gives_codeProperties info
  | list start => exact gives_listProperties start
  | link url title => exact gives_targetProperties url title
  | image url title => exact gives_targetProperties url title
  | heading level =>
      exact gives_ofList (List.forall_mem_singleton.mpr (isEntry_number (by decide) level))
  | tableHead =>
      exact gives_ofList (List.forall_mem_singleton.mpr (isEntry_flag (by decide) true))
  | footnoteDefinition label =>
      exact gives_ofList (List.forall_mem_singleton.mpr (isEntry_text (by decide) label))
  | _ => exact nofun

end Tag

theorem TextsApart.cons {n : Node} {ns : List Node} (h : TextsApart ns) (hn : n.kind ≠ .text) :
    TextsApart (n :: ns) :=
  List.isChain_cons.mpr ⟨fun _ _ htexts => hn htexts.1, h⟩

theorem TextsApart.reverse {ns : List Node} (h : TextsApart ns) : TextsApart ns.reverse := by
  apply List.isChain_reverse.mpr
  exact h.imp fun m n hmn htexts => hmn htexts.symm

namespace Node

theorem nodes_of_children_eq_nil {n : Node} (h : n.children = []) {m : Node} (hm : m ∈ n.nodes) :
    m = n := by
  rcases mem_nodes.mp hm with rfl | ⟨c, hc, _⟩
  · rfl
  · rw [h] at hc
    exact absurd hc List.not_mem_nil

theorem isTidy_of_childless {n : Node} (hchildren : n.children = [])
    (himage : n.kind = .image → ∃ alt, n.property? "alt" = some (.text alt))
    (hchecked : n.kind ≠ .listItem → n.property? "checked" = none)
    (htext : n.kind = .text → n.value.isSome = true) : ∀ m ∈ n.nodes, m.IsTidy := by
  intro m hm
  obtain rfl := nodes_of_children_eq_nil hchildren hm
  refine ⟨fun _ => hchildren, himage, hchecked, htext, ?_, ?_⟩
  · rw [hchildren]
    exact nofun
  · rw [hchildren]
    exact .nil

theorem isTidy_leaf (kind : Kind) (hkind : kind ≠ .image) (value : String) :
    ∀ m ∈ (leaf kind value).nodes, m.IsTidy :=
  isTidy_of_childless rfl (fun himage => absurd himage hkind) (fun _ => rfl) fun _ => rfl

theorem isTidy_mark (kind : Kind) (hkind : kind ≠ .image) (htext : kind ≠ .text) :
    ∀ m ∈ (parent kind []).nodes, m.IsTidy :=
  isTidy_of_childless rfl (fun himage => absurd himage hkind) (fun _ => rfl)
    fun h => absurd h htext

end Node

namespace OpenNode

variable {o : OpenNode}

theorem IsTidy.kind_ne_text (h : o.IsTidy) : o.kind ≠ .text := by
  intro htext
  have hparental := h.parental
  rw [htext] at hparental
  cases hparental

theorem IsTidy.add (h : o.IsTidy) {n : Node} (hroot : n.kind ≠ .root) (htext : n.kind ≠ .text)
    (hn : ∀ m ∈ n.nodes, m.IsTidy) : (o.add n).IsTidy where
  parental := h.parental
  bare := h.bare
  unchecked := h.unchecked
  rootless := List.forall_mem_cons.mpr ⟨hroot, h.rootless⟩
  finished := List.forall_mem_cons.mpr ⟨hn, h.finished⟩
  apart := h.apart.cons htext

theorem IsTidy.withValue (h : o.IsTidy) (hroot : o.kind ≠ .root) (value : Option String) :
    IsTidy { o with value } :=
  { h with bare := fun heq => absurd heq hroot }

theorem IsTidy.addLeafText (h : o.IsTidy) (hhead : ∀ n ∈ o.latest.head?, n.kind ≠ .text)
    (s : String) : (o.add (.leaf .text s)).IsTidy where
  parental := h.parental
  bare := h.bare
  unchecked := h.unchecked
  rootless := List.forall_mem_cons.mpr ⟨nofun, h.rootless⟩
  finished := List.forall_mem_cons.mpr ⟨Node.isTidy_leaf .text nofun s, h.finished⟩
  apart := List.isChain_cons.mpr ⟨fun n hn htexts => hhead n hn htexts.2, h.apart⟩

theorem IsTidy.replaceText {ps : Properties} {v : Option String} {cs rest : List Node}
    (h : o.IsTidy) (hlatest : o.latest = ⟨.text, ps, v, cs⟩ :: rest) (s : String) :
    IsTidy { o with latest := ⟨.text, ps, some s, cs⟩ :: rest } := by
  have hfinished := h.finished
  have happart := h.apart
  have hrootless := h.rootless
  rw [hlatest, List.forall_mem_cons] at hfinished hrootless
  rw [hlatest] at happart
  obtain ⟨hapart, hrest⟩ := List.isChain_cons.mp happart
  have hold : Node.IsTidy ⟨.text, ps, v, cs⟩ := hfinished.1 _ (Node.mem_nodes.mpr (.inl rfl))
  have hnew : ∀ m ∈ (⟨.text, ps, some s, cs⟩ : Node).nodes, m.IsTidy :=
    Node.isTidy_of_childless (hold.childless (.inl rfl)) nofun hold.unchecked fun _ => rfl
  exact ⟨h.parental, h.bare, h.unchecked, List.forall_mem_cons.mpr ⟨nofun, hrootless.2⟩,
    List.forall_mem_cons.mpr ⟨hnew, hfinished.2⟩, List.isChain_cons.mpr ⟨hapart, hrest⟩⟩

theorem IsTidy.addText (h : o.IsTidy) (s : String) : (o.addText s).IsTidy := by
  unfold OpenNode.addText
  split
  next hcode => exact h.withValue (by rw [hcode]; exact nofun) _
  next =>
    split
    next ps v cs rest hlatest => exact h.replaceText hlatest (v ++ s)
    next hother =>
      apply h.addLeafText
      intro n hn htext
      obtain ⟨rest, hlatest⟩ := List.head?_eq_some_iff.mp hn
      -- A text that is there already has a value, so the new one would have joined it.
      have hmem : n ∈ o.latest := List.mem_of_mem_head? hn
      have hworded := (h.finished n hmem n (Node.mem_nodes.mpr (.inl rfl))).worded htext
      obtain ⟨kind, ps, value, cs⟩ := n
      obtain ⟨v, rfl⟩ := Option.isSome_iff_exists.mp hworded
      cases htext
      exact hother ps v cs rest hlatest

theorem IsTidy.addHtml (h : o.IsTidy) (s : String) : (o.addHtml s).IsTidy := by
  unfold OpenNode.addHtml
  split
  next hhtml => exact h.withValue (by rw [hhtml]; exact nofun) _
  next => exact h.add nofun nofun (Node.isTidy_leaf .html nofun s)

theorem IsTidy.check (h : o.IsTidy) (hitem : o.kind = .listItem) (value : Property) :
    IsTidy { o with properties := o.properties.insert "checked" value } :=
  { h with
    bare := fun hroot => by rw [hitem] at hroot; cases hroot
    unchecked := fun hother => absurd hitem hother }

/-- An open node that is no image is tidy as it stands, whatever its own text becomes. -/
theorem IsTidy.nodes (h : o.IsTidy) (himage : o.kind ≠ .image) (value : Option String) :
    ∀ m ∈ Node.nodes { o.node with value }, m.IsTidy := by
  intro m hm
  have hlatest {c : Node} (hc : c ∈ o.node.children) : c ∈ o.latest := List.mem_reverse.mp hc
  rcases Node.mem_nodes.mp hm with rfl | ⟨c, hc, hm⟩
  · refine ⟨?_, fun heq => absurd heq himage, h.unchecked, fun heq => absurd heq h.kind_ne_text,
      fun c hc => h.rootless c (hlatest hc), h.apart.reverse⟩
    rintro (hchildless | heq)
    · exact absurd hchildless (Bool.not_eq_true _ ▸ h.parental)
    · exact absurd heq himage
  · exact h.finished c (hlatest hc) m hm

theorem IsTidy.close (h : o.IsTidy) : ∀ m ∈ o.close.nodes, m.IsTidy := by
  unfold OpenNode.close
  split
  next hcode => exact h.nodes (by rw [hcode]; exact nofun) _
  next hhtml => exact h.nodes (by rw [hhtml]; exact nofun) _
  next himage =>
    apply Node.isTidy_of_childless rfl
    · intro
      exact ⟨_, (Dict.get?_insert _ _ _ _).trans (if_pos rfl)⟩
    · intro (hother : o.kind ≠ .listItem)
      exact (Dict.get?_insert _ _ _ _).trans ((if_neg (by decide)).trans (h.unchecked hother))
    · exact fun heq => absurd heq h.kind_ne_text
  next _ _ himage => exact h.nodes himage o.value

theorem isTidy_opened (tag : Tag) {properties : Properties}
    (h : properties.get? "checked" = none) (value : Option String) :
    IsTidy ⟨tag.kind, properties, value, []⟩ where
  parental := tag.isChildless_kind
  bare := fun heq => absurd heq tag.kind_ne_root
  unchecked := fun _ => h
  rootless := nofun
  finished := nofun
  apart := .nil

theorem isTidy_root : root.IsTidy where
  parental := rfl
  bare := fun _ => ⟨rfl, rfl⟩
  unchecked := fun _ => rfl
  rootless := nofun
  finished := nofun
  apart := .nil

end OpenNode

namespace Builder

theorem isTidy_start : start.IsTidy where
  each := List.forall_mem_singleton.mpr OpenNode.isTidy_root
  grounded := ⟨[], rfl, List.not_mem_nil⟩

theorem gives_cellProperties (b : Builder) : Tag.Gives b.cellProperties := by
  unfold cellProperties
  split
  next align _ =>
    exact Tag.gives_ofList
      (List.forall_mem_singleton.mpr (Tag.isEntry_text (by decide) align.name))
  next => exact nofun

/-- What is opened is bare but for what its tag gives it. -/
theorem exists_openTag_eq (b : Builder) (tag : Tag) :
    ∃ properties columns, Tag.Gives properties ∧
      b.openTag tag = ⟨⟨tag.kind, properties, tag.value, []⟩, b.stack, columns⟩ := by
  cases tag with
  | tableCell => exact ⟨_, _, b.gives_cellProperties, rfl⟩
  | _ => exact ⟨_, _, Tag.gives_properties _, rfl⟩

variable {b : Builder}

theorem IsTidy.openTag (h : b.IsTidy) (tag : Tag) : (b.openTag tag).IsTidy := by
  obtain ⟨properties, columns, hgives, hopen⟩ := b.exists_openTag_eq tag
  obtain ⟨inner, hkinds, hinner⟩ := h.grounded
  have htop := OpenNode.isTidy_opened tag hgives.get?_checked tag.value
  rw [hopen]
  refine ⟨List.forall_mem_cons.mpr ⟨htop, h.each⟩, tag.kind :: inner, ?_, ?_⟩
  · rw [List.cons_append, ← hkinds]
    rfl
  · exact List.not_mem_cons_of_ne_of_not_mem tag.kind_ne_root.symm hinner

theorem IsTidy.top_ne_root {top outer : OpenNode} {below : List OpenNode}
    {columns : List (Option Align)} (h : IsTidy ⟨top, outer :: below, columns⟩) :
    top.kind ≠ .root ∧ ∃ inner, kinds (outer :: below) = inner ++ [.root] ∧ .root ∉ inner := by
  obtain ⟨inner, hkinds, hinner⟩ := h.grounded
  cases inner with
  | nil => cases (List.cons.inj hkinds).2
  | cons kind inner =>
      obtain ⟨hkind, hkinds⟩ := List.cons.inj hkinds
      obtain ⟨hne, hinner⟩ := not_or.mp fun hmem => hinner (List.mem_cons.mpr hmem)
      exact ⟨fun heq => hne (heq.symm.trans hkind), inner, hkinds, hinner⟩

theorem IsTidy.stop (h : b.IsTidy) : b.stop.IsTidy := by
  obtain ⟨top, below, columns⟩ := b
  cases below with
  | nil => exact h
  | cons outer below =>
      obtain ⟨hroot, hgrounded⟩ := h.top_ne_root
      have heach := h.each
      rw [stack, List.forall_mem_cons, List.forall_mem_cons] at heach
      obtain ⟨htop, houter, hbelow⟩ := heach
      have htext := htop.kind_ne_text
      rw [← OpenNode.kind_close] at hroot htext
      exact ⟨List.forall_mem_cons.mpr ⟨houter.add hroot htext htop.close, hbelow⟩, hgrounded⟩

theorem isTidy_mark {checked : Bool} {os : List OpenNode} (h : ∀ o ∈ os, o.IsTidy) :
    ∀ o ∈ mark checked os, o.IsTidy := by
  induction os with
  | nil => exact h
  | cons o os ih =>
      rw [List.forall_mem_cons] at h
      rw [mark]
      split
      next hitem => exact List.forall_mem_cons.mpr ⟨h.1.check hitem _, h.2⟩
      next => exact List.forall_mem_cons.mpr ⟨h.1, ih h.2⟩

theorem IsTidy.task (h : b.IsTidy) (checked : Bool) : (b.task checked).IsTidy := by
  obtain ⟨inner, hkinds, hinner⟩ := h.grounded
  constructor
  · rw [stack_task]
    exact isTidy_mark h.each
  · rw [stack_task, kinds_mark]
    exact ⟨inner, hkinds, hinner⟩

theorem IsTidy.withTop (h : b.IsTidy) {top : OpenNode} (htop : top.IsTidy)
    (hkind : top.kind = b.top.kind) : IsTidy { b with top } := by
  obtain ⟨inner, hkinds, hinner⟩ := h.grounded
  have hbelow := (List.forall_mem_cons.mp h.each).2
  refine ⟨List.forall_mem_cons.mpr ⟨htop, hbelow⟩, inner, ?_, hinner⟩
  rw [← hkinds]
  exact congrArg (· :: kinds b.below) hkind

theorem IsTidy.add (h : b.IsTidy) {n : Node} (hroot : n.kind ≠ .root) (htext : n.kind ≠ .text)
    (hn : ∀ m ∈ n.nodes, m.IsTidy) : (b.add n).IsTidy :=
  h.withTop ((h.each _ List.mem_cons_self).add hroot htext hn) rfl

theorem IsTidy.step (h : b.IsTidy) (e : Event) : (b.step e).IsTidy := by
  have htop : b.top.IsTidy := h.each _ List.mem_cons_self
  cases e with
  | start tag => exact h.openTag tag
  | stop => exact h.stop
  | text s => exact h.withTop (htop.addText s) (OpenNode.kind_addText b.top s)
  | code s => exact h.add nofun nofun (Node.isTidy_leaf .inlineCode nofun s)
  | html s => exact h.withTop (htop.addHtml s) (OpenNode.kind_addHtml b.top s)
  | inlineHtml s => exact h.withTop (htop.addHtml s) (OpenNode.kind_addHtml b.top s)
  | inlineMath s => exact h.add nofun nofun (Node.isTidy_leaf (.other "inlineMath") nofun s)
  | displayMath s => exact h.add nofun nofun (Node.isTidy_leaf (.other "math") nofun s)
  | footnoteReference label =>
      refine h.add ?_ ?_ (Node.isTidy_of_childless rfl nofun (fun _ => rfl) nofun)
      · exact nofun
      · exact nofun
  | softBreak => exact h.withTop (htop.addText "\n") (OpenNode.kind_addText b.top "\n")
  | hardBreak => exact h.add nofun nofun (Node.isTidy_mark .lineBreak nofun nofun)
  | rule => exact h.add nofun nofun (Node.isTidy_mark .thematicBreak nofun nofun)
  | task checked => exact h.task checked

theorem IsTidy.run (h : b.IsTidy) (events : List Event) : (b.run events).IsTidy := by
  induction events generalizing b with
  | nil => exact h
  | cons e events ih => exact ih (h.step e)

/-- The outermost open node is a bare root and the others are no roots. -/
theorem IsTidy.exists_root (h : b.IsTidy) :
    ∃ inner root, b.stack = inner ++ [root] ∧ root.kind = .root ∧ root.properties = .empty ∧
      root.value = none ∧ ∀ o ∈ inner, o.kind ≠ .root := by
  obtain ⟨kinds, hkinds, hinner⟩ := h.grounded
  obtain ⟨inner, outermost, hstack, rfl, houtermost⟩ := List.map_eq_append_iff.mp hkinds
  obtain ⟨root, rfl, hroot⟩ := List.map_eq_singleton_iff.mp houtermost
  have hbare := (h.each root (by rw [hstack]; simp)).bare hroot
  refine ⟨inner, root, hstack, hroot, hbare.1, hbare.2, ?_⟩
  intro o ho heq
  exact hinner (List.mem_map.mpr ⟨o, ho, heq⟩)

theorem IsTidy.finish (h : b.IsTidy) :
    b.finish.kind = .root ∧ b.finish.properties = .empty ∧ b.finish.value = none ∧
      ∀ m ∈ b.finish.nodes, m.IsTidy := by
  obtain ⟨top, below, columns⟩ := b
  induction below generalizing top columns with
  | nil =>
      have htop : top.IsTidy := h.each _ List.mem_cons_self
      have hroot : top.kind = .root := by
        obtain ⟨inner, hkinds, _⟩ := h.grounded
        cases inner with
        | nil => exact (List.cons.inj hkinds).1
        | cons kind inner =>
            have hlength := congrArg List.length hkinds
            simp [kinds, stack] at hlength
      obtain ⟨hproperties, hvalue⟩ := htop.bare hroot
      exact ⟨hroot, hproperties, hvalue, htop.nodes (by rw [hroot]; decide) top.value⟩
  | cons outer below ih =>
      -- Finishing closes the innermost node first.
      exact ih (outer.add top.close) _ h.stop

end Builder

/-- The builder has an open root at any time, makes the tree of the matched events, and the nodes
of the tree are tidy. -/
theorem isTidy_ofEvents (events : List Event) :
    (∀ front, front <+: events → ∃ inner root, (Builder.start.run front).stack = inner ++ [root] ∧
      root.kind = .root ∧ root.properties = .empty ∧ root.value = none ∧
      ∀ o ∈ inner, o.kind ≠ .root) ∧
    Balanced (matched 0 events) ∧ Node.ofEvents (matched 0 events) = Node.ofEvents events ∧
    (Node.ofEvents events).kind = .root ∧ (Node.ofEvents events).properties = .empty ∧
    (Node.ofEvents events).value = none ∧ ∀ m ∈ (Node.ofEvents events).nodes, m.IsTidy := by
  refine ⟨?_, closes_matched 0 events, Builder.start.finish_run_matched events, ?_⟩
  · intro front _
    exact (Builder.isTidy_start.run front).exists_root
  · exact (Builder.isTidy_start.run events).finish

end KeyedMarkup.Doc
