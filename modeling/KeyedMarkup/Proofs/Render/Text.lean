import KeyedMarkup.Proofs.Hypertext.Text
import KeyedMarkup.Proofs.Render.Depth

/-!
# The text of a rendering

Without overrides a rendering shows the text of its document, no part of it lost, repeated or
moved, and has only blanks of its own. What sanitizing strips is the one exception, and with
GitHub's schema these are the scripts and style sheets, which no recognized kind of node becomes.
-/

namespace KeyedMarkup.Render

open Hypertext.Convert (Spares inked_one one spares_github)
open Hypertext.Node (textOutside textOutsideAll textOutsideAll_clean)

mutual

theorem textContent_keyed (keyPrefix : String) (p : Position) (n : Hypertext.Node) :
    (keyed keyPrefix p n).textContent = n.textOutside fun _ => false := by
  cases n with
  | root children => exact textOfAll_keyedAll keyPrefix p 0 children
  | element e =>
      obtain ⟨tag, properties, children, kind⟩ := e
      exact textOfAll_keyedAll keyPrefix p 0 children
  | text value => rfl
  | raw value => rfl

theorem textOfAll_keyedAll (keyPrefix : String) (p : Position) (index : Nat)
    (ns : List Hypertext.Node) :
    Keyed.textOfAll (keyedAll keyPrefix p index ns) = textOutsideAll (fun _ => false) ns := by
  cases ns with
  | nil => rfl
  | cons n rest =>
      rw [keyedAll, Keyed.textOfAll, textContent_keyed keyPrefix _ n,
        textOfAll_keyedAll keyPrefix p _ rest, textOutsideAll]

end

def Sanitizing.strips (sanitizing : Sanitizing) (tag : String) : Bool :=
  sanitizing.schema?.any (·.strip.contains tag)

theorem textOutside_prepare (tree : Doc.Node) (sanitizing : Sanitizing)
    (convert : Hypertext.ConvertOptions) :
    textOutsideAll (fun _ => false) (prepare tree sanitizing convert).rootChildren =
      textOutsideAll sanitizing.strips (one convert tree) := by
  unfold prepare Sanitizing.strips
  cases sanitizing.schema? with
  | none => rfl
  | some s => exact textOutsideAll_clean s (Hypertext.ofDoc convert tree)

variable {o : Options}

/-- The text of a rendering is that of the hypertext outside of what is stripped. -/
theorem textContent_eq_textOutside (h : o.IsPlain) {tree : Doc.Node} {e : Keyed.Element}
    (he : (render o tree).outcome = .ok e) :
    e.textContent = textOutsideAll o.sanitizing.strips (one o.convert tree) := by
  calc e.textContent
      = (Keyed.Node.element e).textContent := rfl
    _ = textOutsideAll (fun _ => false)
          (prepare tree o.sanitizing o.convert).rootChildren := by
        rw [eq_keyed_of_render h he, textContent_keyed, textOutside]
    _ = textOutsideAll o.sanitizing.strips (one o.convert tree) :=
        textOutside_prepare tree o.sanitizing o.convert

/-- Apart from blanks, the text of a rendering is the visible text of its document, if that
document names no element that would be stripped. -/
theorem textContent_of_render (h : o.IsPlain)
    (hsanitizing : o.sanitizing = .disabled ∨ o.sanitizing.schema? = some .github)
    {tree : Doc.Node}
    (hnodes : ∀ n ∈ tree.nodes, n.kind ≠ .other "script" ∧ n.kind ≠ .other "style")
    {e : Keyed.Element} (he : (render o tree).outcome = .ok e) :
    withoutBlanks e.textContent = withoutBlanks tree.visible := by
  have hspares : Spares o.sanitizing.strips tree.preorder := by
    rcases hsanitizing with hoff | hgithub
    · rw [hoff]
      exact ⟨fun _ _ => rfl, fun _ _ _ _ => rfl⟩
    · have hstrips : o.sanitizing.strips = Hypertext.Schema.github.strip.contains := by
        funext tag
        rw [Sanitizing.strips, hgithub, Option.any_some]
      rw [hstrips]
      exact spares_github (Doc.Node.nodes_eq_preorder tree ▸ hnodes)
  rw [textContent_eq_textOutside h he]
  exact inked_one o.convert tree hspares

/-- A table that stands next to a task with a code block and a note of an unknown kind. -/
def taskPage : Doc.Node :=
  .parent .root [
    .parent .table [
      (Doc.Node.parent .tableRow [.parent .tableCell [.leaf .text "a b"]]).withProperty "header"
        (.flag true),
      .parent .paragraph [.parent .emphasis [.leaf .text "c"], .leaf .text "d"]],
    .parent .list [
      (Doc.Node.parent .listItem [.leaf .code "e\nf", .leaf (.other "note") "g",
        .leaf .html "<hr>"]).withProperty "checked" (.flag true)]]

theorem textContent_render_taskPage :
    ∃ e, (render {} taskPage).outcome = .ok e ∧ withoutBlanks e.textContent = "abcefg" := by
  have hlevels : levels taskPage + taskPage.tableNesting + 2 ≤ 512 := by
    rw [levels_eq]
    decide
  have hnodes : ∀ n ∈ taskPage.nodes, n.kind ≠ .other "script" ∧ n.kind ≠ .other "style" := by
    rw [Doc.Node.nodes_eq_preorder]
    decide
  obtain ⟨e, he⟩ := exists_outcome_render (o := {}) rfl hlevels
  refine ⟨e, he, ?_⟩
  rw [textContent_of_render ⟨rfl, rfl⟩ (.inr rfl) hnodes he]
  decide

end KeyedMarkup.Render
