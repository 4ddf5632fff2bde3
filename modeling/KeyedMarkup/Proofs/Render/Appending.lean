import KeyedMarkup.Proofs.Hypertext.Repetition
import KeyedMarkup.Proofs.Render.Depth

/-!
# Appending to a document

Blocks that are appended to a document do not change the rendering of those before them. Conversion
and sanitizing treat siblings one after the other, a line break stands before a block and not after
it, and the key of a block depends on the number of nodes before it only. All of this is lost for
the outermost element itself if a component takes its place.
-/

namespace KeyedMarkup

namespace Doc.Node

theorem heightAll_le_append (xs ys : List Node) : heightAll xs ≤ heightAll (xs ++ ys) := by
  induction xs with
  | nil => exact Nat.zero_le _
  | cons x xs ih =>
      rw [List.cons_append, heightAll, heightAll]
      omega

end Doc.Node

namespace Hypertext.Convert

theorem all_append (options : ConvertOptions) (xs ys : List Doc.Node) :
    all options (xs ++ ys) = all options xs ++ all options ys := by
  induction xs with
  | nil => rfl
  | cons x xs ih => rw [List.cons_append, all, all, ih, List.append_assoc]

theorem lines_cons_cons (m n : Node) (rest : List Node) :
    lines (m :: n :: rest) = m :: .text "\n" :: lines (n :: rest) := rfl

theorem lines_prefix_append (ms ns : List Node) : lines ms <+: lines (ms ++ ns) := by
  induction ms with
  | nil => exact List.nil_prefix
  | cons m ms ih =>
      cases ms with
      | cons m' ms =>
          rw [List.cons_append] at ih ⊢
          rw [List.cons_append, lines_cons_cons, lines_cons_cons]
          apply (List.prefix_cons_inj m).mpr
          apply (List.prefix_cons_inj (Node.text "\n")).mpr
          exact ih
      | nil =>
          cases ns with
          | nil => exact List.prefix_rfl
          | cons n ns =>
              show [m] <+: lines (m :: n :: ns)
              rw [lines_cons_cons]
              exact List.prefix_append [m] _

end Hypertext.Convert

namespace Render

variable {o : Options}

theorem renderedAll_append_eq_ok {p : Position} {ms ns : List Hypertext.Node} {index : Nat}
    {rs : List Keyed.Node} (h : renderedAll o p index (ms ++ ns) = .ok rs) :
    ∃ front, renderedAll o p index ms = .ok front ∧ front <+: rs := by
  induction ms generalizing index rs with
  | nil => exact ⟨[], by rw [renderedAll], List.nil_prefix⟩
  | cons m ms ih =>
      rw [List.cons_append, renderedAll] at h
      rw [renderedAll]
      split at h
      next hroom =>
        obtain ⟨r, hm, h⟩ := bind_eq_ok.mp h
        obtain ⟨others, hothers, h⟩ := bind_eq_ok.mp h
        obtain rfl := Except.ok.inj h
        obtain ⟨front, hfront, hprefix⟩ := ih hothers
        refine ⟨r :: front, ?_, (List.prefix_cons_inj r).mpr hprefix⟩
        rw [if_pos hroom, hm, hfront]
        rfl
      next => cases h

theorem prepare_append (xs ys : List Doc.Node) (sanitizing : Sanitizing)
    (convert : Hypertext.ConvertOptions) :
    ∃ front back, prepare (.parent .root xs) sanitizing convert = .root front ∧
      prepare (.parent .root (xs ++ ys)) sanitizing convert = .root (front ++ back) := by
  have hlines := Hypertext.Convert.lines_prefix_append
    (Hypertext.Convert.all convert xs) (Hypertext.Convert.all convert ys)
  rw [← Hypertext.Convert.all_append] at hlines
  obtain ⟨back, hback⟩ := hlines
  have hone (zs : List Doc.Node) : Hypertext.ofDoc convert (.parent .root zs) =
      .root (Hypertext.Convert.lines (Hypertext.Convert.all convert zs)) := by
    rw [Hypertext.ofDoc, Doc.Node.parent, Hypertext.Convert.one]
  unfold prepare
  dsimp only
  rw [hone, hone, ← hback]
  cases sanitizing.schema? with
  | none => exact ⟨_, back, rfl, rfl⟩
  | some s =>
      refine ⟨Hypertext.Node.cleanAll s
        (Hypertext.Convert.lines (Hypertext.Convert.all convert xs)),
        Hypertext.Node.cleanAll s back, rfl, ?_⟩
      rw [← Hypertext.Node.cleanAll_append]
      rfl

/-- Whether the outermost element of a rendering is left to the built-in rendering. -/
def Options.KeepsContainer (o : Options) : Prop :=
  o.factory = .plain ∧ o.components.get? (.tag containerTag) = none ∧
    o.components.get? (.kind .root) = none

theorem Options.KeepsContainer.override?_root (h : o.KeepsContainer)
    (children : List Hypertext.Node) : o.components.override? (.root children) = none := by
  obtain ⟨_, htag, hkind⟩ := h
  simp [Registry.override?, tagOf, Hypertext.Node.kind?, htag, hkind]

theorem outcome_renderHypertext_root_eq_ok (h : o.KeepsContainer)
    {children : List Hypertext.Node} {e : Keyed.Element} :
    (renderHypertext o (.root children)).outcome = .ok e ↔
      ∃ content, renderedAll o [] 0 children = .ok content ∧
        e = ⟨containerTag, some o.keyPrefix, .empty, content⟩ := by
  have hplaced (content : List Keyed.Node) (own : Keyed.Node) :
      placed o (keyAt o.keyPrefix []) (.root children) .empty content own = .ok own := by
    rw [placed, h.override?_root]
  rw [outcome_renderHypertext, Hypertext.Node.rootChildren, rendered]
  cases renderedAll o [] 0 children with
  | error error => simp [bind, Except.bind]
  | ok content =>
      simp only [bind, Except.bind, hplaced, h.1]
      simp [Keyed.Factory.plain, keyAt, eq_comm]

/-- If a document is rendered, so is any beginning of it, and the content of the one rendering is
a beginning of the content of the other. -/
theorem children_prefix_of_render_append (h : o.KeepsContainer) {xs ys : List Doc.Node}
    {e : Keyed.Element} (he : (render o (.parent .root (xs ++ ys))).outcome = .ok e) :
    ∃ e', (render o (.parent .root xs)).outcome = .ok e' ∧ e'.children <+: e.children := by
  obtain ⟨front, back, hfront, hback⟩ := prepare_append xs ys o.sanitizing o.convert
  have hlevels : levels (.parent .root xs) ≤ levels (.parent .root (xs ++ ys)) := by
    rw [levels_eq, levels_eq]
    exact Doc.Node.heightAll_le_append xs ys
  have hfits : levels (.parent .root (xs ++ ys)) ≤ o.maxDepth := by
    apply Nat.not_lt.mp
    intro hdeep
    rw [render, Options.prepare, if_pos hdeep] at he
    cases he
  rw [outcome_render_of_prepare (prepare_eq_ok_iff.mpr ⟨hfits, hback⟩),
    outcome_renderHypertext_root_eq_ok h] at he
  obtain ⟨content, hcontent, rfl⟩ := he
  obtain ⟨content', hcontent', hprefix⟩ := renderedAll_append_eq_ok hcontent
  refine ⟨⟨containerTag, some o.keyPrefix, .empty, content'⟩, ?_, hprefix⟩
  rw [outcome_render_of_prepare (prepare_eq_ok_iff.mpr ⟨Nat.le_trans hlevels hfits, hfront⟩)]
  exact (outcome_renderHypertext_root_eq_ok h).mpr ⟨content', hcontent', rfl⟩

def sectioning : Options where
  components := .ofList [(.kind .paragraph, fun i => i.element "section")]

/-- Raw HTML, which is dropped, and a paragraph. -/
def openingBlocks : List Doc.Node :=
  [.leaf .html "<b>", .parent .paragraph [.leaf .text "a"]]

/-- A node that is replaced by its content, and another paragraph. -/
def closingBlocks : List Doc.Node :=
  [.parent (.other "aside") [.leaf .text "b", .leaf .text "c"], .parent .paragraph []]

theorem children_prefix_openingBlocks :
    sectioning.KeepsContainer ∧
    ∃ e, (render sectioning (.parent .root (openingBlocks ++ closingBlocks))).outcome = .ok e ∧
      e.keys = ["h", "h-0", "h-5"] ∧
      ∃ e', (render sectioning (.parent .root openingBlocks)).outcome = .ok e' ∧
        e'.children <+: e.children := by
  have hkeeps : sectioning.KeepsContainer := by
    refine ⟨rfl, ?_, ?_⟩
    · decide
    · decide
  have hlevels : levels (.parent .root (openingBlocks ++ closingBlocks)) = 2 := by
    rw [levels_eq]
    decide
  have hprepared : sectioning.prepare (.parent .root (openingBlocks ++ closingBlocks)) = .ok
      (.root [.element ⟨"p", .empty, [.text "a"], some .paragraph⟩, .text "\n", .text "b",
        .text "c", .text "\n", .element ⟨"p", .empty, [], some .paragraph⟩]) :=
    prepare_eq_ok_iff.mpr ⟨by rw [hlevels]; decide, by with_unfolding_all rfl⟩
  have he : (render sectioning (.parent .root (openingBlocks ++ closingBlocks))).outcome = .ok
      ⟨"div", some "h", .empty,
        [.element ⟨"section", some "h-0", .empty, [.text "a"]⟩, .text "\n", .text "b", .text "c",
          .text "\n", .element ⟨"section", some "h-5", .empty, []⟩]⟩ := by
    rw [outcome_render_of_prepare hprepared, outcome_renderHypertext]
    with_unfolding_all rfl
  exact ⟨hkeeps, _, he, by decide, children_prefix_of_render_append hkeeps he⟩

end Render

end KeyedMarkup
