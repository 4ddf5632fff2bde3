import KeyedMarkup.Proofs.Doc.Built

/-!
# The text of a built tree

A builder puts texts in three places: into children, which merge where they meet, into code and
HTML blocks, which hold their text themselves, and into leaves of their own. Read back in document
order it is the text of the events in their order. Only code and HTML blocks lose something, one
newline at the end of each if there is one.
-/

namespace KeyedMarkup.Doc

/-- The text that an event brings into a tree. -/
def Event.wording : Event → String
  | .text s | .code s | .html s | .inlineHtml s | .inlineMath s | .displayMath s => s
  | .softBreak => "\n"
  | .start _ | .stop | .footnoteReference _ | .hardBreak | .rule | .task _ => ""

def wordings (events : List Event) : String := String.join (events.map Event.wording)

theorem wordings_cons (e : Event) (events : List Event) :
    wordings (e :: events) = e.wording ++ wordings events := by
  rw [wordings, List.map_cons, String.join_cons]
  rfl

theorem wordings_append (events events' : List Event) :
    wordings (events ++ events') = wordings events ++ wordings events' := by
  rw [wordings, List.map_append, String.join_append]
  rfl

/-- Whether a finished node of a kind shows what it shows while it is open. -/
def Kind.isPlain : Kind → Bool
  | .code | .html | .image => false
  | _ => true

namespace Tag

/-- Whether a construct holds its text itself. -/
def isVerbatim : Tag → Bool
  | .code _ | .html => true
  | _ => false

/-- Whether a construct may hold an event: code holds texts and soft breaks, an HTML block raw HTML,
and all others anything. -/
def mayHold : Tag → Event → Bool
  | .code _, .text _ | .code _, .softBreak | .html, .html _ | .html, .inlineHtml _ => true
  | tag, _ => !tag.isVerbatim

end Tag

def withoutFinalNewline (s : String) : String :=
  if s.toList.getLast? = some '\n' then .ofList s.toList.dropLast else s

/-- The text that events write. What follows the start of a code or HTML block belongs to the block
until something stops, and it loses one newline at its end. -/
def written : List Event → String
  | [] => ""
  | .start tag :: rest =>
      if tag.isVerbatim then
        withoutFinalNewline (wordings (rest.takeWhile (!·.isStop))) ++
          written (rest.dropWhile (!·.isStop)).tail
      else written rest
  | e :: rest => e.wording ++ written rest
termination_by events => events.length
decreasing_by
  · have hlength := (List.dropWhile_sublist (fun e => !e.isStop) (l := rest)).length_le
    simp only [List.length_cons, List.length_tail]
    omega
  · simp
  · simp

/-- Whether no image starts among the events, and code and HTML blocks hold nothing but what they
may hold, up to the next stop or the end. -/
structure Plain (events : List Event) : Prop where
  imageless : ∀ url title, .start (.image url title) ∉ events
  held : ∀ tag rest, .start tag :: rest <:+ events →
    ∀ e ∈ rest.takeWhile (!·.isStop), tag.mayHold e = true

theorem Plain.suffix {events tail : List Event} (h : Plain events) (htail : tail <:+ events) :
    Plain tail where
  imageless := fun url title hmem => h.imageless url title (htail.subset hmem)
  held := fun tag rest hrest => h.held tag rest (hrest.trans htail)

/-- Whether an event starts nothing, or no image and no block that holds what it may not. -/
def Event.startsPlain : Event → List Event → Bool
  | .start tag, rest => tag.kind != .image && (rest.takeWhile (!·.isStop)).all tag.mayHold
  | _, _ => true

theorem plain_nil : Plain [] where
  imageless := fun _ _ => List.not_mem_nil
  held := fun _ _ hrest => absurd (List.suffix_nil.mp hrest) (List.cons_ne_nil _ _)

theorem plain_cons_iff {e : Event} {rest : List Event} :
    Plain (e :: rest) ↔ e.startsPlain rest = true ∧ Plain rest := by
  constructor
  · intro h
    refine ⟨?_, h.suffix (List.suffix_cons _ _)⟩
    cases e with
    | start tag =>
        have himage : tag.kind ≠ .image := by
          cases tag with
          | image url title => exact absurd List.mem_cons_self (h.imageless url title)
          | _ => nofun
        exact Bool.and_eq_true_iff.mpr
          ⟨bne_iff_ne.mpr himage, List.all_eq_true.mpr (h.held tag rest List.suffix_rfl)⟩
    | _ => rfl
  · rintro ⟨hstart, h⟩
    constructor
    · rintro url title (_ | ⟨_, hmem⟩)
      · cases hstart
      · exact h.imageless url title hmem
    · intro tag rest' hrest
      rcases List.suffix_cons_iff.mp hrest with heq | htail
      · obtain ⟨rfl, rfl⟩ := List.cons.inj heq
        exact List.all_eq_true.mp (Bool.and_eq_true_iff.mp hstart).2
      · exact h.held tag rest' htail

instance decidablePlain : (events : List Event) → Decidable (Plain events)
  | [] => .isTrue plain_nil
  | _ :: rest =>
      have := decidablePlain rest
      decidable_of_iff' _ plain_cons_iff

theorem withoutFinalNewline_eq (s : String) :
    (match s.toList.reverse with
      | '\n' :: cs => String.ofList cs.reverse
      | _ => s) = withoutFinalNewline s := by
  rw [withoutFinalNewline, ← List.head?_reverse]
  split
  next cs heq =>
    have hlist : s.toList = cs.reverse ++ ['\n'] := by
      rw [← List.reverse_reverse s.toList, heq, List.reverse_cons]
    rw [heq, List.head?_cons, if_pos rfl, hlist, List.dropLast_concat]
  next hother =>
    rw [if_neg]
    intro hhead
    obtain ⟨cs, heq⟩ := List.head?_eq_some_iff.mp hhead
    exact hother cs heq

namespace OpenNode

/-- Whether what comes to an open node becomes a child of it. -/
structure TakesChildren (o : OpenNode) : Prop where
  tidy : o.IsTidy
  kind : o.kind ≠ .code ∧ o.kind ≠ .html

/-- The text of an open node and of its finished children. -/
def wording (o : OpenNode) : String := o.node.textContent

theorem wording_eq (o : OpenNode) :
    o.wording = o.value.getD "" ++ String.join (o.latest.reverse.map Node.textContent) :=
  Node.textContent_eq o.node

theorem wording_add (o : OpenNode) (n : Node) : (o.add n).wording = o.wording ++ n.textContent := by
  rw [wording_eq, wording_eq, add, List.reverse_cons, List.map_append, String.join_append,
    String.append_assoc, List.map_singleton, String.join_cons, String.join_nil,
    String.append_empty]

theorem wording_addLeaf (o : OpenNode) (kind : Kind) (s : String) :
    (o.add (.leaf kind s)).wording = o.wording ++ s := by
  rw [wording_add, Node.textContent_of_childless rfl]
  rfl

theorem wording_addText {o : OpenNode} (h : o.TakesChildren) (s : String) :
    (o.addText s).wording = o.wording ++ s := by
  unfold addText
  rw [if_neg h.kind.1]
  split
  next ps v cs rest hlatest =>
    -- The text that was there has no children, so its own text is what comes last.
    have hmem : ⟨.text, ps, some v, cs⟩ ∈ o.latest := by
      rw [hlatest]
      exact List.mem_cons_self
    have hchildless : cs = [] :=
      (h.tidy.finished _ hmem _ (Node.mem_nodes.mpr (.inl rfl))).childless (.inl rfl)
    have hbefore : o = add { o with latest := rest } ⟨.text, ps, some v, cs⟩ := by
      rw [add, ← hlatest]
    have htext (t : String) : Node.textContent ⟨.text, ps, some t, cs⟩ = t :=
      Node.textContent_of_childless hchildless
    calc
      wording (add { o with latest := rest } ⟨.text, ps, some (v ++ s), cs⟩)
      _ = wording { o with latest := rest } ++ (v ++ s) := by rw [wording_add, htext]
      _ = wording (add { o with latest := rest } ⟨.text, ps, some v, cs⟩) ++ s := by
        rw [wording_add, htext, String.append_assoc]
      _ = o.wording ++ s := by rw [← hbefore]
  next => exact wording_addLeaf o .text s

theorem wording_addHtml {o : OpenNode} (h : o.TakesChildren) (s : String) :
    (o.addHtml s).wording = o.wording ++ s := by
  unfold addHtml
  rw [if_neg h.kind.2]
  exact wording_addLeaf o .html s

theorem textContent_close {o : OpenNode} (h : o.kind.isPlain = true) :
    o.close.textContent = o.wording := by
  obtain ⟨kind, properties, value, latest⟩ := o
  cases kind with
  | code | html | image => cases h
  | _ => rfl

theorem textContent_close_verbatim {tag : Tag} (h : tag.isVerbatim = true)
    (properties : Properties) (v : String) :
    (close ⟨tag.kind, properties, some v, []⟩).textContent = withoutFinalNewline v := by
  rw [← withoutFinalNewline_eq]
  cases tag with
  | code info => exact Node.textContent_of_childless rfl
  | html => exact Node.textContent_of_childless rfl
  | _ => cases h

end OpenNode

namespace Builder

def wordingOf : List OpenNode → String
  | [] => ""
  | o :: outer => wordingOf outer ++ o.wording

/-- The text of a builder so far. -/
def wording (b : Builder) : String := wordingOf b.stack

theorem wording_withTop (b : Builder) (top : OpenNode) :
    wording { b with top } = wordingOf b.below ++ top.wording := rfl

theorem wordingOf_mark (checked : Bool) (os : List OpenNode) :
    wordingOf (mark checked os) = wordingOf os := by
  induction os with
  | nil => rfl
  | cons o os ih =>
      rw [mark]
      split
      next =>
        rw [wordingOf, wordingOf, OpenNode.wording_eq, OpenNode.wording_eq]
      next => rw [wordingOf, wordingOf, ih]

/-- What is neither a start nor a stop adds its text to the innermost node, unless that holds texts
of its own. -/
theorem wording_step_leaf {b : Builder} (htakes : b.top.TakesChildren) {e : Event}
    (he : e.isLeaf = true) : (b.step e).wording = b.wording ++ e.wording := by
  have hadd {top : OpenNode} {s : String} (h : top.wording = b.top.wording ++ s) :
      wording { b with top } = b.wording ++ s := by
    rw [wording_withTop, h, ← String.append_assoc]
    rfl
  have hnothing {n : Node} (hchildren : n.children = []) (hvalue : n.value = none) :
      (b.top.add n).wording = b.top.wording ++ "" := by
    rw [OpenNode.wording_add, Node.textContent_of_childless hchildren, Node.ownText, hvalue]
    rfl
  cases e with
  | start tag => cases he
  | stop => cases he
  | text s => exact hadd (OpenNode.wording_addText htakes s)
  | softBreak => exact hadd (OpenNode.wording_addText htakes "\n")
  | html s => exact hadd (OpenNode.wording_addHtml htakes s)
  | inlineHtml s => exact hadd (OpenNode.wording_addHtml htakes s)
  | code s => exact hadd (b.top.wording_addLeaf .inlineCode s)
  | inlineMath s => exact hadd (b.top.wording_addLeaf (.other "inlineMath") s)
  | displayMath s => exact hadd (b.top.wording_addLeaf (.other "math") s)
  | footnoteReference label => exact hadd (hnothing rfl rfl)
  | hardBreak => exact hadd (hnothing rfl rfl)
  | rule => exact hadd (hnothing rfl rfl)
  | task checked =>
      show wordingOf (b.task checked).stack = _
      rw [stack_task, wordingOf_mark]
      exact String.append_empty.symm

/-- Whether every open node shows when it is finished what it shows now. -/
structure IsPlain (b : Builder) : Prop where
  tidy : b.IsTidy
  plain : ∀ kind ∈ kinds b.stack, kind.isPlain = true

namespace IsPlain

variable {b : Builder}

theorem takesChildren_top (h : b.IsPlain) : b.top.TakesChildren := by
  have htop : b.top.kind.isPlain = true := h.plain _ List.mem_cons_self
  refine ⟨h.tidy.each _ List.mem_cons_self, ?_, ?_⟩
  · intro hcode
    rw [hcode] at htop
    cases htop
  · intro hhtml
    rw [hhtml] at htop
    cases htop

theorem leaf (h : b.IsPlain) {e : Event} (he : e.isLeaf = true) :
    (b.step e).IsPlain ∧ (b.step e).wording = b.wording ++ e.wording := by
  refine ⟨⟨h.tidy.step e, ?_⟩, wording_step_leaf h.takesChildren_top he⟩
  rw [kinds_step_leaf he]
  exact h.plain

theorem start (h : b.IsPlain) {tag : Tag} (htag : tag.kind.isPlain = true) :
    (b.step (.start tag)).IsPlain ∧ (b.step (.start tag)).wording = b.wording := by
  have hwording : (b.step (.start tag)).top.wording = "" := by
    rw [OpenNode.wording_eq]
    cases tag with
    | code | html | image => cases htag
    | _ => rfl
  refine ⟨⟨h.tidy.step _, List.forall_mem_cons.mpr ⟨htag, h.plain⟩⟩, ?_⟩
  show b.wording ++ (b.step (.start tag)).top.wording = b.wording
  rw [hwording, String.append_empty]

theorem stop (h : b.IsPlain) : b.stop.IsPlain ∧ b.stop.wording = b.wording := by
  have htidy := h.tidy.stop
  obtain ⟨top, below, columns⟩ := b
  cases below with
  | nil => exact ⟨h, rfl⟩
  | cons outer below =>
      obtain ⟨htop, hbelow⟩ := List.forall_mem_cons.mp h.plain
      refine ⟨⟨htidy, hbelow⟩, ?_⟩
      show wordingOf below ++ (outer.add top.close).wording =
        wordingOf below ++ outer.wording ++ top.wording
      rw [OpenNode.wording_add, OpenNode.textContent_close htop, String.append_assoc]

theorem textContent_finish (h : b.IsPlain) : b.finish.textContent = b.wording := by
  obtain ⟨top, below, columns⟩ := b
  induction below generalizing top columns with
  | nil => exact String.empty_append.symm
  | cons outer below ih =>
      obtain ⟨hstop, hwording⟩ := h.stop
      rw [← finish_stop, ← hwording]
      exact ih (outer.add top.close) _ hstop

end IsPlain

theorem step_verbatim {tag : Tag} (htag : tag.isVerbatim = true) {e : Event}
    (he : tag.mayHold e = true) (properties : Properties) (v : String) (below : List OpenNode)
    (columns : List (Option Align)) :
    step ⟨⟨tag.kind, properties, some v, []⟩, below, columns⟩ e =
      ⟨⟨tag.kind, properties, some (v ++ e.wording), []⟩, below, columns⟩ := by
  cases tag with
  | code info =>
      cases e with
      | text s => rfl
      | softBreak => rfl
      | _ => cases he
  | html =>
      cases e with
      | html s => rfl
      | inlineHtml s => rfl
      | _ => cases he
  | _ => cases htag

theorem run_verbatim {tag : Tag} (htag : tag.isVerbatim = true) {inside : List Event}
    (hinside : ∀ e ∈ inside, tag.mayHold e = true) (properties : Properties) (v : String)
    (below : List OpenNode) (columns : List (Option Align)) :
    run ⟨⟨tag.kind, properties, some v, []⟩, below, columns⟩ inside =
      ⟨⟨tag.kind, properties, some (v ++ wordings inside), []⟩, below, columns⟩ := by
  induction inside generalizing v with
  | nil => rw [wordings, List.map_nil, String.join_nil, String.append_empty]; rfl
  | cons e inside ih =>
      rw [List.forall_mem_cons] at hinside
      rw [run_cons, step_verbatim htag hinside.1, ih hinside.2, wordings_cons, String.append_assoc]

/-- A block with its text adds the text, without a newline at its end, when it is closed. -/
theorem IsPlain.block {b : Builder} (h : b.IsPlain) {tag : Tag} (htag : tag.isVerbatim = true)
    {inside : List Event} (hinside : ∀ e ∈ inside, tag.mayHold e = true) :
    ((b.step (.start tag)).run inside).stop.IsPlain ∧
      ((b.step (.start tag)).run inside).stop.wording =
        b.wording ++ withoutFinalNewline (wordings inside) := by
  have htidy := (((h.tidy.step (.start tag)).run inside).stop)
  have hvalue : tag.value = some "" := by
    cases tag with
    | code info => rfl
    | html => rfl
    | _ => cases htag
  obtain ⟨properties, columns, _, hstart⟩ := b.exists_openTag_eq tag
  rw [hvalue] at hstart
  change b.step (.start tag) = _ at hstart
  rw [hstart, run_verbatim htag hinside, String.empty_append] at htidy ⊢
  refine ⟨⟨htidy, h.plain⟩, ?_⟩
  show wordingOf b.below ++ (b.top.add _).wording = _
  rw [OpenNode.wording_add, OpenNode.textContent_close_verbatim htag, ← String.append_assoc]
  rfl

theorem finish_run_dropWhile (b : Builder) (events : List Event) :
    (b.run (events.dropWhile (!·.isStop))).finish =
      (b.stop.run (events.dropWhile (!·.isStop)).tail).finish := by
  induction events with
  | nil => exact (finish_stop b).symm
  | cons e events ih =>
      cases e with
      | stop => rfl
      | _ => exact ih

theorem textContent_finish_run {b : Builder} (hb : b.IsPlain) {events : List Event}
    (h : Plain events) :
    (b.run events).finish.textContent = b.wording ++ written events := by
  fun_induction written events generalizing b with
  | case1 => rw [String.append_empty]; exact hb.textContent_finish
  | case2 tag rest htag ih =>
    -- The block runs to the next stop, which is the first of what comes after `inside`, if any.
    let inside := rest.takeWhile (!·.isStop)
    let after := rest.dropWhile (!·.isStop)
    have hsplit : inside ++ after = rest := List.takeWhile_append_dropWhile
    have hinside : ∀ e ∈ inside, tag.mayHold e = true := h.held tag rest List.suffix_rfl
    obtain ⟨hblock, hwording⟩ := hb.block htag hinside
    have hafter : Plain after.tail := by
      apply h.suffix
      have htail : after.tail <:+ rest := (List.tail_suffix _).trans (List.dropWhile_suffix _)
      exact htail.trans (List.suffix_cons _ _)
    calc
      (b.run (.start tag :: rest)).finish.textContent
      _ = (((b.step (.start tag)).run inside).run after).finish.textContent := by
        rw [run_cons, ← run_append, hsplit]
      _ = ((((b.step (.start tag)).run inside).stop).run after.tail).finish.textContent := by
        rw [finish_run_dropWhile]
      _ = b.wording ++ (withoutFinalNewline (wordings inside) ++ written after.tail) := by
        rw [ih hblock hafter, hwording, String.append_assoc]
  | case3 tag rest htag ih =>
    have hplain : tag.kind.isPlain = true := by
      cases tag with
      | code | html => exact absurd rfl htag
      | image url title => exact absurd List.mem_cons_self (h.imageless url title)
      | _ => rfl
    obtain ⟨hstart, hwording⟩ := hb.start hplain
    rw [run_cons, ih hstart (h.suffix (List.suffix_cons _ _)), hwording]
  | case4 e rest he ih =>
    have hstep : (b.step e).IsPlain ∧ (b.step e).wording = b.wording ++ e.wording := by
      rcases e.start_or_stop_or_isLeaf with ⟨tag, rfl⟩ | rfl | hleaf
      · exact absurd rfl (he tag)
      · exact ⟨hb.stop.1, hb.stop.2.trans String.append_empty.symm⟩
      · exact hb.leaf hleaf
    rw [run_cons, ih hstep.1 (h.suffix (List.suffix_cons _ _)), hstep.2, String.append_assoc]

theorem isPlain_start : start.IsPlain where
  tidy := isTidy_start
  plain := List.forall_mem_singleton.mpr rfl

end Builder

/-- A tree has the text of its events, in their order, when no image starts among them and blocks
hold what they may hold. Events need not be balanced. -/
theorem Node.textContent_ofEvents {events : List Event} (h : Plain events) :
    (Node.ofEvents events).textContent = written events := by
  rw [ofEvents, Builder.textContent_finish_run Builder.isPlain_start h]
  show "" ++ OpenNode.root.wording ++ written events = written events
  rw [OpenNode.wording_eq]
  exact String.empty_append

/-- A stop before anything, a list item with a block whose text ends in two newlines, more stops
than starts, and an HTML block that nothing stops. -/
def looseEvents : List Event :=
  [.stop, .start (.list none), .start .item, .text "a", .softBreak, .task true,
    .start (.code (some "rust")), .text "b\n", .softBreak, .stop, .code "c", .stop, .stop, .stop,
    .start .html, .html "<p>\n", .inlineHtml "d"]

theorem Node.textContent_ofEvents_looseEvents :
    Plain looseEvents ∧ (Node.ofEvents looseEvents).textContent = "a\nb\nc<p>\nd" := by
  have hplain : Plain looseEvents := by decide
  have hwritten : written looseEvents = "a\nb\nc<p>\nd" := by
    simp [looseEvents, written, wordings, Event.wording, withoutFinalNewline, Tag.isVerbatim,
      Event.isStop]
  exact ⟨hplain, (Node.textContent_ofEvents hplain).trans hwritten⟩

end KeyedMarkup.Doc
