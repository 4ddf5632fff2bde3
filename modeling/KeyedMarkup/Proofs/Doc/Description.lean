import KeyedMarkup.Proofs.Doc.Wording

/-!
# Descriptions of images

What stands between the start of an image and its stop is inline: texts, and pairs of inline
constructs. The image keeps their text as its description, but no children. An image within it is
finished first and has no text left by then, so the outer description goes without what the inner
one says.
-/

namespace KeyedMarkup.Doc

namespace Tag

def isInline : Tag → Bool
  | .emphasis | .strong | .strikethrough | .link _ _ | .image _ _ => true
  | _ => false

def inlineKinds : List Kind := [.emphasis, .strong, .delete, .link, .image]

theorem kind_ne_of_isInline {tag : Tag} (h : tag.isInline = true) {kind : Kind}
    (hkind : kind ∉ inlineKinds) : tag.kind ≠ kind := by
  rintro rfl
  cases tag with
  | emphasis | strong | strikethrough | link | image => exact hkind (by simp [kind, inlineKinds])
  | _ => cases h

end Tag

/-- Whether an event may stand in the description of an image. -/
def Event.isInline : Event → Bool
  | .start tag => tag.isInline
  | .stop | .text _ | .code _ | .inlineHtml _ | .softBreak => true
  | _ => false

/-- The events that are in no image, where the first come that deep within one. -/
def outsideImages : Nat → List Event → List Event
  | _, [] => []
  | 0, .start (.image _ _) :: rest => outsideImages 1 rest
  | 0, e :: rest => e :: outsideImages 0 rest
  | depth + 1, .start _ :: rest => outsideImages (depth + 2) rest
  | depth + 1, .stop :: rest => outsideImages depth rest
  | depth + 1, _ :: rest => outsideImages (depth + 1) rest

theorem outsideImages_sublist (depth : Nat) (events : List Event) :
    (outsideImages depth events).Sublist events := by
  fun_induction outsideImages depth events with
  | case1 => exact .slnil
  | case3 _ _ _ ih => exact ih.cons_cons _
  | case2 _ _ _ ih | case4 _ _ _ ih | case5 _ _ ih | case6 _ _ _ _ _ ih => exact ih.cons _

theorem outsideImages_leaf {e : Event} (he : e.isLeaf = true) (rest : List Event) :
    outsideImages 0 (e :: rest) = e :: outsideImages 0 rest := by
  cases e with
  | start tag => cases he
  | _ => rfl

theorem outsideImages_start (tag : Tag) (rest : List Event) :
    outsideImages 0 (.start tag :: rest) =
      if tag.kind = .image then outsideImages 1 rest
      else .start tag :: outsideImages 0 rest := by
  cases tag <;> rfl

theorem outsideImages_stop (rest : List Event) :
    outsideImages 0 (.stop :: rest) = .stop :: outsideImages 0 rest := rfl

/-- Within an image, balanced events bring nothing and come back to where they began. -/
theorem outsideImages_skip {body : List Event} (h : Nested body) (depth : Nat)
    (rest : List Event) :
    outsideImages (depth + 1) (body ++ rest) = outsideImages (depth + 1) rest := by
  induction h generalizing depth rest with
  | nil => rfl
  | @leaf e _ he _ ih =>
      cases e with
      | start tag => cases he
      | stop => cases he
      | _ => exact ih depth rest
  | pair tag _ _ ihbody ihrest =>
      rw [List.append_assoc, List.cons_append, List.cons_append, outsideImages,
        ihbody (depth + 1), outsideImages, ihrest]

theorem outsideImages_append {body : List Event} (h : Nested body) (rest : List Event) :
    outsideImages 0 (body ++ rest) = outsideImages 0 body ++ outsideImages 0 rest := by
  induction h generalizing rest with
  | nil => rfl
  | leaf he _ ih =>
      rw [List.cons_append, outsideImages_leaf he, outsideImages_leaf he, ih, List.cons_append]
  | pair tag hbody _ ihbody ihrest =>
      rw [List.append_assoc, List.cons_append, List.cons_append, List.cons_append,
        outsideImages_start, outsideImages_start]
      split
      next =>
        rw [outsideImages_skip hbody, outsideImages_skip hbody, outsideImages, outsideImages,
          ihrest]
      next =>
        rw [ihbody, ihbody, outsideImages_stop, outsideImages_stop, ihrest, List.cons_append,
          List.append_assoc, List.cons_append]

theorem outsideImages_pair (tag : Tag) {body : List Event} (h : Nested body) (rest : List Event) :
    outsideImages 0 (.start tag :: body ++ .stop :: rest) =
      (if tag.kind = .image then [] else .start tag :: outsideImages 0 body ++ [.stop]) ++
        outsideImages 0 rest := by
  rw [List.cons_append, outsideImages_start]
  split
  next => rw [outsideImages_skip h, outsideImages, List.nil_append]
  next =>
    rw [outsideImages_append h, outsideImages_stop, List.append_assoc, List.cons_append,
      List.cons_append, List.nil_append]

/-- The text of the events that are in no image, where the first come that deep within one. -/
def described : Nat → List Event → String
  | _, [] => ""
  | 0, .start (.image _ _) :: rest => described 1 rest
  | 0, e :: rest => e.wording ++ described 0 rest
  | depth + 1, .start _ :: rest => described (depth + 2) rest
  | depth + 1, .stop :: rest => described depth rest
  | depth + 1, _ :: rest => described (depth + 1) rest

theorem described_eq (depth : Nat) (events : List Event) :
    described depth events = wordings (outsideImages depth events) := by
  fun_induction outsideImages depth events with
  | case1 depth => cases depth <;> rfl
  | case3 e rest himage ih => rw [described, ih, wordings_cons]; exact himage
  | case2 url title rest ih => exact ih
  | case4 depth tag rest ih => rw [described, ih]
  | case5 depth rest ih => rw [described, ih]
  | case6 depth e rest hstart hstop ih => rw [described, ih]; exacts [hstart, hstop]

theorem described_leaf {e : Event} (he : e.isLeaf = true) (rest : List Event) :
    described 0 (e :: rest) = e.wording ++ described 0 rest := by
  rw [described_eq, described_eq, outsideImages_leaf he, wordings_cons]

theorem described_pair (tag : Tag) {body : List Event} (h : Nested body) (rest : List Event) :
    described 0 (.start tag :: body ++ .stop :: rest) =
      (if tag.kind = .image then "" else described 0 body) ++ described 0 rest := by
  rw [described_eq, described_eq, described_eq, outsideImages_pair tag h, wordings_append]
  split
  next => rfl
  next =>
    rw [List.cons_append, wordings_cons, wordings_append]
    show ("" ++ (_ ++ "")) ++ _ = _
    rw [String.empty_append, String.append_empty]

theorem described_eq_wordings {body : List Event}
    (h : ∀ url title, .start (.image url title) ∉ body) : described 0 body = wordings body := by
  induction body with
  | nil => rfl
  | cons e body ih =>
      have hbody := ih fun url title hmem => h url title (List.mem_cons_of_mem e hmem)
      rw [wordings_cons, ← hbody]
      cases e with
      | start tag =>
          cases tag with
          | image url title => exact absurd List.mem_cons_self (h url title)
          | _ => rfl
      | _ => rfl

def Node.image (url title alt : String) : Node :=
  ⟨.image, (targetProperties url title).insert "alt" (.text alt), none, []⟩

theorem Node.alt_image (url title alt : String) :
    (image url title alt).property? "alt" = some (.text alt) :=
  (Dict.get?_insert _ _ _ _).trans (if_pos rfl)

namespace OpenNode

/-- Whether an open node has got more children with a text, and is as it was otherwise. -/
structure Gains (s : String) (before after : OpenNode) : Prop where
  takes : after.TakesChildren
  frame : ∃ latest, after = { before with latest }
  wording : after.wording = before.wording ++ s

namespace Gains

variable {s t : String} {o o' o'' : OpenNode}

theorem kind (h : Gains s o o') : o'.kind = o.kind := by
  obtain ⟨latest, rfl⟩ := h.frame
  rfl

theorem nothing (h : o.TakesChildren) : Gains "" o o :=
  ⟨h, ⟨o.latest, rfl⟩, String.append_empty.symm⟩

theorem trans (h : Gains s o o') (h' : Gains t o' o'') : Gains (s ++ t) o o'' where
  takes := h'.takes
  frame := by
    obtain ⟨latest, hframe⟩ := h.frame
    obtain ⟨latest', hframe'⟩ := h'.frame
    rw [hframe] at hframe'
    exact ⟨latest', hframe'⟩
  wording := by rw [h'.wording, h.wording, String.append_assoc]

theorem add (h : o.TakesChildren) {n : Node} (hroot : n.kind ≠ .root) (htext : n.kind ≠ .text)
    (hn : ∀ m ∈ n.nodes, m.IsTidy) : Gains n.textContent o (o.add n) :=
  ⟨⟨h.tidy.add hroot htext hn, h.kind⟩, ⟨n :: o.latest, rfl⟩, wording_add o n⟩

theorem addLeaf (h : o.TakesChildren) (kind : Kind) (hroot : kind ≠ .root) (htext : kind ≠ .text)
    (himage : kind ≠ .image) (s : String) : Gains s o (o.add (.leaf kind s)) := by
  have hadd := add h hroot htext (Node.isTidy_leaf kind himage s)
  rwa [Node.textContent_of_childless rfl] at hadd

theorem addText (h : o.TakesChildren) (s : String) : Gains s o (o.addText s) where
  takes := ⟨h.tidy.addText s, by rw [kind_addText]; exact h.kind⟩
  frame := by
    unfold OpenNode.addText
    rw [if_neg h.kind.1]
    split
    · exact ⟨_, rfl⟩
    · exact ⟨_, rfl⟩
  wording := wording_addText h s

theorem addHtml (h : o.TakesChildren) (s : String) : Gains s o (o.addHtml s) := by
  unfold OpenNode.addHtml
  rw [if_neg h.kind.2]
  exact addLeaf h .html nofun nofun nofun s

end Gains

/-- An image keeps what it has gained as its description only. -/
theorem Gains.close_image {properties : Properties} {s : String} {o : OpenNode}
    (h : Gains s ⟨.image, properties, none, []⟩ o) :
    o.close = ⟨.image, properties.insert "alt" (.text s), none, []⟩ := by
  obtain ⟨latest, hframe⟩ := h.frame
  have hwording : o.node.textContent = s := by
    refine h.wording.trans ?_
    rw [wording_eq]
    exact String.empty_append
  rw [hframe] at hwording ⊢
  rw [← hwording]
  rfl

theorem textContent_close_inline {tag : Tag} (htag : tag.isInline = true) {properties : Properties}
    {s : String} {o : OpenNode} (h : Gains s ⟨tag.kind, properties, none, []⟩ o) :
    o.close.textContent = if tag.kind = .image then "" else s := by
  split
  next himage =>
    rw [himage] at h
    rw [h.close_image]
    exact Node.textContent_of_childless rfl
  next hother =>
    have hplain : o.kind.isPlain = true := by
      rw [h.kind]
      cases tag with
      | image url title => exact absurd rfl hother
      | emphasis | strong | strikethrough | link => rfl
      | _ => cases htag
    rw [textContent_close hplain, h.wording, wording_eq]
    exact String.empty_append

end OpenNode

namespace Builder

/-- Whether some events add children with a text, wherever children are taken, and do nothing
else. -/
def Adds (body : List Event) (s : String) : Prop :=
  ∀ b : Builder, b.top.TakesChildren → ∃ top, b.run body = { b with top } ∧ b.top.Gains s top

theorem gains_of_isInline {e : Event} (hinline : e.isInline = true) (hleaf : e.isLeaf = true)
    {b : Builder} (h : b.top.TakesChildren) :
    ∃ top, b.step e = { b with top } ∧ b.top.Gains e.wording top := by
  cases e with
  | start tag => cases hleaf
  | stop => cases hleaf
  | text s => exact ⟨_, rfl, .addText h s⟩
  | softBreak => exact ⟨_, rfl, .addText h "\n"⟩
  | code s => exact ⟨_, rfl, .addLeaf h .inlineCode nofun nofun nofun s⟩
  | inlineHtml s => exact ⟨_, rfl, .addHtml h s⟩
  | _ => cases hinline

theorem openTag_of_isInline {tag : Tag} (h : tag.isInline = true) (b : Builder) :
    b.openTag tag = ⟨⟨tag.kind, tag.properties, none, []⟩, b.stack, b.columns⟩ := by
  cases tag with
  | emphasis | strong | strikethrough | link | image => rfl
  | _ => cases h

/-- The node that a pair makes of what its start opened. -/
theorem Adds.enclosed {body : List Event} {s : String} (h : Adds body s) {tag : Tag}
    (htag : tag.isInline = true) (b : Builder) :
    ∃ o, ((b.openTag tag).run body).stop = b.add o.close ∧
      OpenNode.Gains s ⟨tag.kind, tag.properties, none, []⟩ o := by
  have hne {kind : Kind} (hkind : kind ∉ Tag.inlineKinds) := Tag.kind_ne_of_isInline htag hkind
  rw [openTag_of_isInline htag]
  have htakes : OpenNode.TakesChildren ⟨tag.kind, tag.properties, none, []⟩ :=
    ⟨OpenNode.isTidy_opened tag tag.gives_properties.get?_checked none, hne (by decide),
      hne (by decide)⟩
  obtain ⟨o, hrun, hgains⟩ := h ⟨_, b.stack, b.columns⟩ htakes
  refine ⟨o, ?_, hgains⟩
  have htable : o.kind ≠ .table := by
    rw [hgains.kind]
    exact hne (by decide)
  rw [hrun]
  show Builder.mk _ _ (if o.kind = .table then [] else b.columns) = _
  rw [if_neg htable]
  rfl

theorem adds_of_nested {body : List Event} (h : Nested body)
    (hinline : ∀ e ∈ body, e.isInline = true) : Adds body (described 0 body) := by
  induction h with
  | nil => exact fun b htakes => ⟨b.top, rfl, .nothing htakes⟩
  | leaf he _ ih =>
      intro b htakes
      rw [List.forall_mem_cons] at hinline
      obtain ⟨top, hstep, hgains⟩ := gains_of_isInline hinline.1 he htakes
      obtain ⟨top', hrun, hgains'⟩ := ih hinline.2 { b with top } hgains.takes
      refine ⟨top', ?_, ?_⟩
      · rw [run_cons, hstep, hrun]
      · rw [described_leaf he]
        exact hgains.trans hgains'
  | @pair tag body rest hbody _ ihbody ihrest =>
      intro b htakes
      simp only [List.cons_append, List.forall_mem_cons, List.forall_mem_append] at hinline
      obtain ⟨htag, hin, _, hout⟩ := hinline
      obtain ⟨o, hstop, hgains⟩ := (ihbody hin).enclosed htag b
      have hadd : b.top.Gains o.close.textContent (b.top.add o.close) := by
        have hkind : o.close.kind = tag.kind := (OpenNode.kind_close o).trans hgains.kind
        apply OpenNode.Gains.add htakes _ _ hgains.takes.tidy.close
        · rw [hkind]
          exact tag.kind_ne_root
        · rw [hkind]
          exact Tag.kind_ne_of_isInline htag (by decide)
      obtain ⟨top, hrun, hgains'⟩ := ihrest hout (b.add o.close) hadd.takes
      refine ⟨top, ?_, ?_⟩
      · rw [run_pair, hstop, hrun]
        rfl
      · rw [described_pair tag hbody, ← OpenNode.textContent_close_inline htag hgains]
        exact hadd.trans hgains'

theorem run_image {body : List Event} (h : Balanced body)
    (hinline : ∀ e ∈ body, e.isInline = true) (b : Builder) (url title : String) :
    b.run (.start (.image url title) :: body ++ [.stop]) =
      b.add (.image url title (described 0 body)) := by
  have htag : (Tag.image url title).isInline = true := rfl
  obtain ⟨o, hstop, hgains⟩ := (adds_of_nested h.nested hinline).enclosed htag b
  rw [run_pair]
  exact hstop.trans (congrArg b.add hgains.close_image)

end Builder

namespace OpenNode

def Holds (n : Node) (o : OpenNode) : Prop := ∃ c ∈ o.latest, n ∈ c.nodes

variable {n : Node} {o : OpenNode}

theorem holds_add_self (n : Node) (o : OpenNode) : (o.add n).Holds n :=
  ⟨n, List.mem_cons_self, Node.mem_nodes.mpr (.inl rfl)⟩

theorem Holds.add (h : o.Holds n) (m : Node) : (o.add m).Holds n := by
  obtain ⟨c, hc, hn⟩ := h
  exact ⟨c, List.mem_cons_of_mem m hc, hn⟩

theorem Holds.addText (h : o.Holds n) (hn : n.kind ≠ .text) (s : String) :
    (o.addText s).Holds n := by
  unfold OpenNode.addText
  split
  next => exact h
  next =>
    split
    next ps v cs rest hlatest =>
      obtain ⟨c, hc, hmem⟩ := h
      rw [hlatest] at hc
      rcases List.mem_cons.mp hc with rfl | hc
      · -- The text that is replaced is not the node, which must be below it then.
        rcases Node.mem_nodes.mp hmem with rfl | hbelow
        · exact absurd rfl hn
        · exact ⟨_, List.mem_cons_self, Node.mem_nodes.mpr (.inr hbelow)⟩
      · exact ⟨c, List.mem_cons_of_mem _ hc, hmem⟩
    next => exact h.add _

theorem Holds.addHtml (h : o.Holds n) (s : String) : (o.addHtml s).Holds n := by
  unfold OpenNode.addHtml
  split
  · exact h
  · exact h.add _

theorem Holds.mem_nodes (h : o.Holds n) (value : Option String) :
    n ∈ Node.nodes { o.node with value } := by
  obtain ⟨c, hc, hn⟩ := h
  exact Node.mem_nodes.mpr (.inr ⟨c, List.mem_reverse.mpr hc, hn⟩)

theorem Holds.close (h : o.Holds n) (hkind : o.kind ≠ .image) : n ∈ o.close.nodes := by
  unfold OpenNode.close
  split
  · exact h.mem_nodes _
  · exact h.mem_nodes _
  · contradiction
  · exact h.mem_nodes o.value

end OpenNode

namespace Builder

/-- Whether a finished node is in an open one, and no image is open around it. -/
inductive Shows (n : Node) : List OpenNode → Prop where
  | here {o : OpenNode} {outer : List OpenNode} (hholds : o.Holds n)
      (himage : .image ∉ kinds (o :: outer)) : Shows n (o :: outer)
  | outside {o : OpenNode} {outer : List OpenNode} (h : Shows n outer) : Shows n (o :: outer)

namespace Shows

variable {n : Node} {b : Builder}

theorem withTop (h : Shows n b.stack) {top : OpenNode} (hkind : top.kind = b.top.kind)
    (htop : b.top.Holds n → top.Holds n) : Shows n (stack { b with top }) := by
  cases h with
  | here hholds himage =>
      apply here (htop hholds)
      show .image ∉ top.kind :: kinds b.below
      rw [hkind]
      exact himage
  | outside h => exact h.outside

theorem add (h : Shows n b.stack) (m : Node) : Shows n (b.add m).stack :=
  h.withTop rfl fun hholds => hholds.add m

theorem mark {os : List OpenNode} (h : Shows n os) (checked : Bool) :
    Shows n (Builder.mark checked os) := by
  induction h with
  | here hholds himage =>
      rw [Builder.mark]
      split
      next => exact here hholds himage
      next =>
        apply here hholds
        show .image ∉ _ :: kinds _
        rw [kinds_mark]
        exact himage
  | outside h ih =>
      rw [Builder.mark]
      split
      next => exact h.outside
      next => exact ih.outside

theorem stop (h : Shows n b.stack) : Shows n b.stop.stack := by
  obtain ⟨top, below, columns⟩ := b
  cases below with
  | nil => exact h
  | cons outer below =>
      cases h with
      | here hholds himage =>
          obtain ⟨htop, hbelow⟩ := not_or.mp fun hmem => himage (List.mem_cons.mpr hmem)
          have hclose : n ∈ top.close.nodes := hholds.close fun heq => htop heq.symm
          exact here ⟨top.close, List.mem_cons_self, hclose⟩ hbelow
      | outside h =>
          cases h with
          | here hholds himage => exact here (hholds.add top.close) himage
          | outside h => exact h.outside

/-- What is shown stays, unless it is a text, to which more text may come. -/
theorem step (h : Shows n b.stack) (hn : n.kind ≠ .text) (e : Event) :
    Shows n (b.step e).stack := by
  cases e with
  | start tag => exact h.outside
  | stop => exact h.stop
  | text s => exact h.withTop (OpenNode.kind_addText b.top s) fun hholds => hholds.addText hn s
  | softBreak =>
      exact h.withTop (OpenNode.kind_addText b.top "\n") fun hholds => hholds.addText hn "\n"
  | html s => exact h.withTop (OpenNode.kind_addHtml b.top s) fun hholds => hholds.addHtml s
  | inlineHtml s => exact h.withTop (OpenNode.kind_addHtml b.top s) fun hholds => hholds.addHtml s
  | task checked =>
      show Shows n (b.task checked).stack
      rw [stack_task]
      exact h.mark checked
  | _ => exact h.add _

theorem run (h : Shows n b.stack) (hn : n.kind ≠ .text) (events : List Event) :
    Shows n (b.run events).stack := by
  induction events generalizing b with
  | nil => exact h
  | cons e events ih => exact ih (h.step hn e)

theorem finish (h : Shows n b.stack) : n ∈ b.finish.nodes := by
  obtain ⟨top, below, columns⟩ := b
  induction below generalizing top columns with
  | nil =>
      cases h with
      | here hholds _ => exact hholds.mem_nodes top.value
      | outside h => cases h
  | cons outer below ih => exact ih (outer.add top.close) _ h.stop

end Shows

end Builder

/-- An image has the text between its start and its stop as its description, what is in images
within it left out. It is in the tree unless it is in an image itself. -/
theorem Node.image_ofEvents {body : List Event} (h : Balanced body)
    (hinline : ∀ e ∈ body, e.isInline = true) (url title : String) (front back : List Event) :
    let before := Builder.start.run front
    let n := image url title (described 0 body)
    before.run (.start (.image url title) :: body ++ [.stop]) =
      { before with top := { before.top with latest := n :: before.top.latest } } ∧
    (.image ∉ Builder.kinds before.stack →
      n ∈ (ofEvents (front ++ (.start (.image url title) :: body ++ [.stop]) ++ back)).nodes) ∧
    ((∀ url title, .start (.image url title) ∉ body) → described 0 body = wordings body) := by
  intro before n
  have hrun : before.run (.start (.image url title) :: body ++ [.stop]) = before.add n :=
    Builder.run_image h hinline before url title
  refine ⟨hrun, ?_, described_eq_wordings⟩
  intro himage
  have hshows : Builder.Shows n (before.add n).stack :=
    .here (OpenNode.holds_add_self n before.top) himage
  have htext : n.kind ≠ .text := show Kind.image ≠ .text by decide
  rw [ofEvents, Builder.run_append, Builder.run_append, hrun]
  exact (hshows.run htext back).finish

/-- Inline events with a link and with an image, in which there is an image again. -/
def richBody : List Event :=
  [.text "a", .start (.link "l" ""), .code "b", .stop, .start (.image "v" "t"), .text "c",
    .start (.image "w" ""), .text "d", .stop, .softBreak, .stop, .softBreak, .start .emphasis,
    .inlineHtml "<i>", .stop]

theorem balanced_richBody : Balanced richBody := by
  apply (closes_leaf rfl _ 0).mpr
  apply (closes_start _ _ 0).mpr
  apply (closes_leaf rfl _ 1).mpr
  apply (closes_stop _ 0).mpr
  apply (closes_start _ _ 0).mpr
  apply (closes_leaf rfl _ 1).mpr
  apply (closes_start _ _ 1).mpr
  apply (closes_leaf rfl _ 2).mpr
  apply (closes_stop _ 1).mpr
  apply (closes_leaf rfl _ 1).mpr
  apply (closes_stop _ 0).mpr
  apply (closes_leaf rfl _ 0).mpr
  apply (closes_start _ _ 0).mpr
  apply (closes_leaf rfl _ 1).mpr
  exact (closes_stop _ 0).mpr closes_nil

/-- The image stands in a list item that nothing stops, behind a code block. -/
theorem Node.image_ofEvents_richBody :
    let front : List Event := [.stop, .start (.code none), .text "x", .stop, .start (.list none),
      .start .item, .text "y"]
    Balanced richBody ∧ (∀ e ∈ richBody, e.isInline = true) ∧
      .image ∉ Builder.kinds (Builder.start.run front).stack ∧
      Node.image "u" "t" "ab\n<i>" ∈ (ofEvents
        (front ++ (.start (.image "u" "t") :: richBody ++ [.stop]) ++ [.text "z"])).nodes := by
  intro front
  have hinline : ∀ e ∈ richBody, e.isInline = true := by decide
  have hfront : .image ∉ Builder.kinds (Builder.start.run front).stack := by decide
  have hdescribed : described 0 richBody = "ab\n<i>" := by decide
  obtain ⟨_, hmem, _⟩ := image_ofEvents balanced_richBody hinline "u" "t" front [.text "z"]
  rw [hdescribed] at hmem
  exact ⟨balanced_richBody, hinline, hfront, hmem hfront⟩

def nestedImage : List Event :=
  [.text "a", .start (.image "v" ""), .text "b", .stop, .text "c"]

/-- The description of an image lacks the text of an image within it. -/
theorem Node.image_ofEvents_nestedImage :
    Balanced nestedImage ∧ (∀ e ∈ nestedImage, e.isInline = true) ∧ wordings nestedImage = "abc" ∧
      ofEvents (.start (.image "u" "") :: nestedImage ++ [.stop]) =
        .parent .root [.image "u" "" "ac"] ∧
      (Node.image "u" "" "ac").property? "alt" ≠ some (.text (wordings nestedImage)) := by
  have hbalanced : Balanced nestedImage := by
    apply (closes_leaf rfl _ 0).mpr
    apply (closes_start _ _ 0).mpr
    apply (closes_leaf rfl _ 1).mpr
    apply (closes_stop _ 0).mpr
    exact (closes_leaf rfl _ 0).mpr closes_nil
  have hinline : ∀ e ∈ nestedImage, e.isInline = true := by decide
  have hdescribed : described 0 nestedImage = "ac" := by decide
  have hwordings : wordings nestedImage = "abc" := by decide
  refine ⟨hbalanced, hinline, hwordings, ?_, ?_⟩
  · rw [ofEvents, Builder.run_image hbalanced hinline, hdescribed]
    rfl
  · rw [alt_image, hwordings]
    decide

end KeyedMarkup.Doc
