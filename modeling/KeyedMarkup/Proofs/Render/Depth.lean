import KeyedMarkup.Proofs.Hypertext.Height
import KeyedMarkup.Proofs.Render.Plain

/-!
# The limit of the depth

Without components a rendering fails only at the limit, and exactly if the hypertext is deeper than
that. The levels of a document are counted before it is converted, where code blocks and tables
still have fewer of them. So a document that is too deep is always rejected, one that stays away
from the limit by its tables and two more levels is always rendered, and between the two it can
be prepared and yet not be rendered.
-/

namespace KeyedMarkup.Render

open Hypertext.Node (height heightAll)

variable {o : Options}

mutual

theorem exists_rendered (h : o.components = .empty) (n : Hypertext.Node) (p : Position)
    (hfits : p.length + n.height ≤ o.maxDepth) : ∃ r, rendered o p n = .ok r := by
  cases n with
  | root children =>
      obtain ⟨content, hcontent⟩ := exists_renderedAll h children p 0 hfits
      rw [rendered]
      exact ⟨_, bind_eq_ok.mpr ⟨content, hcontent, placed_of_empty h _ _ _ _ _⟩⟩
  | element e =>
      obtain ⟨tag, properties, children, kind⟩ := e
      obtain ⟨content, hcontent⟩ := exists_renderedAll h children p 0 hfits
      rw [rendered]
      exact ⟨_, bind_eq_ok.mpr ⟨content, hcontent, placed_of_empty h _ _ _ _ _⟩⟩
  | text value =>
      rw [rendered]
      exact ⟨_, placed_of_empty h _ _ _ _ _⟩
  | raw value =>
      rw [rendered]
      exact ⟨_, placed_of_empty h _ _ _ _ _⟩

theorem exists_renderedAll (h : o.components = .empty) (ns : List Hypertext.Node) (p : Position)
    (index : Nat) (hfits : p.length + heightAll ns ≤ o.maxDepth) :
    ∃ rs, renderedAll o p index ns = .ok rs := by
  cases ns with
  | nil => exact ⟨[], by rw [renderedAll]⟩
  | cons n rest =>
      rw [heightAll] at hfits
      have hroom : p.length < o.maxDepth := by omega
      have hnode : (index :: p).length + n.height ≤ o.maxDepth := by
        rw [List.length_cons]
        omega
      obtain ⟨r, hr⟩ := exists_rendered h n (index :: p) hnode
      obtain ⟨rs, hrs⟩ := exists_renderedAll h rest p (index + 1) (by omega)
      rw [renderedAll, if_pos hroom]
      exact ⟨r :: rs, bind_eq_ok.mpr ⟨r, hr, bind_eq_ok.mpr ⟨rs, hrs, rfl⟩⟩⟩

end

mutual

theorem rendered_of_too_deep (h : o.components = .empty) (n : Hypertext.Node) (p : Position)
    (hp : p.length ≤ o.maxDepth) (hdeep : o.maxDepth < p.length + n.height) :
    rendered o p n = .error (.depthExceeded o.maxDepth) := by
  cases n with
  | root children =>
      rw [rendered, renderedAll_of_too_deep h children p 0 hp hdeep]
      rfl
  | element e =>
      obtain ⟨tag, properties, children, kind⟩ := e
      rw [rendered, renderedAll_of_too_deep h children p 0 hp hdeep]
      rfl
  | text value => exact absurd hdeep (Nat.not_lt.mpr hp)
  | raw value => exact absurd hdeep (Nat.not_lt.mpr hp)

theorem renderedAll_of_too_deep (h : o.components = .empty) (ns : List Hypertext.Node)
    (p : Position) (index : Nat) (hp : p.length ≤ o.maxDepth)
    (hdeep : o.maxDepth < p.length + heightAll ns) :
    renderedAll o p index ns = .error (.depthExceeded o.maxDepth) := by
  cases ns with
  | nil => exact absurd hdeep (Nat.not_lt.mpr hp)
  | cons n rest =>
      rw [heightAll] at hdeep
      rw [renderedAll]
      by_cases hroom : p.length < o.maxDepth
      · rw [if_pos hroom]
        by_cases hnode : o.maxDepth < (index :: p).length + n.height
        · rw [rendered_of_too_deep h n (index :: p) hroom hnode]
          rfl
        · -- The node itself fits, so it is one of the others that is too deep.
          obtain ⟨r, hr⟩ := exists_rendered h n (index :: p) (Nat.not_lt.mp hnode)
          rw [List.length_cons] at hnode
          rw [hr, renderedAll_of_too_deep h rest p (index + 1) hp (by omega)]
          rfl
      · rw [if_neg hroom]

end

theorem exists_outcome_renderHypertext (h : o.components = .empty) (n : Hypertext.Node)
    (hfits : heightAll n.rootChildren ≤ o.maxDepth) :
    ∃ e, (renderHypertext o n).outcome = .ok e := by
  have hroot : ([] : Position).length + (Hypertext.Node.root n.rootChildren).height ≤
      o.maxDepth := by
    rw [List.length_nil, Nat.zero_add]
    exact hfits
  obtain ⟨r, hr⟩ := exists_rendered h (.root n.rootChildren) [] hroot
  rw [outcome_renderHypertext, hr]
  cases r with
  | element e => exact ⟨e, rfl⟩
  | text value => exact ⟨_, rfl⟩
  | raw value => exact ⟨_, rfl⟩

theorem outcome_renderHypertext_of_too_deep (h : o.components = .empty) (n : Hypertext.Node)
    (hdeep : o.maxDepth < heightAll n.rootChildren) :
    (renderHypertext o n).outcome = .error (.depthExceeded o.maxDepth) := by
  have hroot : o.maxDepth <
      ([] : Position).length + (Hypertext.Node.root n.rootChildren).height := by
    rw [List.length_nil, Nat.zero_add]
    exact hdeep
  rw [outcome_renderHypertext,
    rendered_of_too_deep h (.root n.rootChildren) [] (Nat.zero_le _) hroot]

/-- Without components a rendering succeeds exactly if the hypertext has no more levels than the
limit, whatever the factory, and sanitizing it first never makes it fail. -/
theorem outcome_renderHypertext_of_depth (h : o.components = .empty) (n : Hypertext.Node)
    (s : Hypertext.Schema) :
    (o.maxDepth < n.depth →
        (renderHypertext o n).outcome = .error (.depthExceeded o.maxDepth)) ∧
      (n.depth ≤ o.maxDepth → ∃ e, (renderHypertext o n).outcome = .ok e) ∧
      ((∃ e, (renderHypertext o n).outcome = .ok e) →
        ∃ e, (renderHypertext o (n.sanitize s)).outcome = .ok e) := by
  have hdepth : heightAll n.rootChildren = n.depth := n.heightAll_rootChildren
  refine ⟨?_, ?_, ?_⟩
  · intro hdeep
    exact outcome_renderHypertext_of_too_deep h n (hdepth ▸ hdeep)
  · intro hfits
    exact exists_outcome_renderHypertext h n (hdepth ▸ hfits)
  · rintro ⟨e, he⟩
    have hfits : heightAll n.rootChildren ≤ o.maxDepth := by
      by_contra hdeep
      rw [outcome_renderHypertext_of_too_deep h n (Nat.not_le.mp hdeep)] at he
      cases he
    exact exists_outcome_renderHypertext h _
      (Nat.le_trans (Hypertext.Node.height_sanitize_le s n) hfits)

/-- A text in a root, in an element that no schema knows. -/
def shelteredText : Hypertext.Node := .element ⟨"shelter", .empty, [.root [.text "a"]], none⟩

theorem outcome_renderHypertext_shelteredText :
    let o (maxDepth : Nat) : Options := { factory := .upperCase, maxDepth }
    shelteredText.depth = 3 ∧
      (renderHypertext (o 0) shelteredText).outcome = .error (.depthExceeded 0) ∧
      (renderHypertext (o 2) shelteredText).outcome = .error (.depthExceeded 2) ∧
      (∃ e, (renderHypertext (o 3) shelteredText).outcome = .ok e) ∧
      ∃ e, (renderHypertext (o 3) (shelteredText.sanitize .github)).outcome = .ok e := by
  intro o
  have hdepth : shelteredText.depth = 3 := rfl
  have hnone (maxDepth : Nat) : (o maxDepth).components = .empty := rfl
  obtain ⟨_, hfits, hsanitized⟩ :=
    outcome_renderHypertext_of_depth (hnone 3) shelteredText .github
  refine ⟨hdepth, ?_, ?_, hfits (Nat.le_of_eq hdepth), hsanitized (hfits (Nat.le_of_eq hdepth))⟩
  · exact (outcome_renderHypertext_of_depth (hnone 0) shelteredText .github).1 (by decide)
  · exact (outcome_renderHypertext_of_depth (hnone 2) shelteredText .github).1 (by decide)

theorem levels_eq (tree : Doc.Node) :
    levels tree = if tree.kind = .root then tree.height else tree.height + 1 := by
  unfold levels
  rw [Doc.Node.depth_eq_height]
  cases tree.kind <;> rfl

theorem heightAll_one_le_levels (options : Hypertext.ConvertOptions) (tree : Doc.Node) :
    heightAll (Hypertext.Convert.one options tree) ≤ levels tree + tree.tableNesting + 2 := by
  rw [levels_eq]
  split
  next hroot =>
      obtain ⟨kind, properties, value, children⟩ := tree
      obtain rfl : kind = .root := hroot
      have hall := Hypertext.Convert.heightAll_all_le options children
      have hlines := Hypertext.Node.heightAll_spaced
        (Hypertext.Convert.spaced_lines (Hypertext.Convert.all options children))
      rw [Hypertext.Convert.one, Doc.Node.height, Doc.Node.tableNesting]
      omega
  next =>
      have hone := Hypertext.Convert.heightAll_one_le options tree
      omega

theorem heightAll_rootChildren_prepare (tree : Doc.Node) (sanitizing : Sanitizing)
    (convert : Hypertext.ConvertOptions) :
    heightAll (prepare tree sanitizing convert).rootChildren =
      (prepare tree sanitizing convert).height := by
  unfold prepare
  dsimp only
  split <;> rfl

theorem height_prepare_le (tree : Doc.Node) (sanitizing : Sanitizing)
    (convert : Hypertext.ConvertOptions) :
    (prepare tree sanitizing convert).height ≤ levels tree + tree.tableNesting + 2 := by
  have hone := heightAll_one_le_levels convert tree
  unfold prepare
  dsimp only
  split
  next s _ => exact Nat.le_trans (Hypertext.Node.height_sanitize_le s _) hone
  next => exact hone

theorem prepare_eq_ok_iff {tree : Doc.Node} {hypertext : Hypertext.Node} :
    o.prepare tree = .ok hypertext ↔
      levels tree ≤ o.maxDepth ∧ prepare tree o.sanitizing o.convert = hypertext := by
  unfold Options.prepare
  split
  next hdeep => exact ⟨nofun, fun hfits => absurd hfits.1 (Nat.not_le.mpr hdeep)⟩
  next hfits => simp [Nat.not_lt.mp hfits]

theorem outcome_render_of_prepare {tree : Doc.Node} {hypertext : Hypertext.Node}
    (hprepared : o.prepare tree = .ok hypertext) :
    (render o tree).outcome = (renderHypertext o hypertext).outcome := by
  rw [render, hprepared]

theorem exists_outcome_render (h : o.components = .empty) {tree : Doc.Node}
    (hfits : levels tree + tree.tableNesting + 2 ≤ o.maxDepth) :
    ∃ e, (render o tree).outcome = .ok e := by
  have hheight := height_prepare_le tree o.sanitizing o.convert
  have hprepared : o.prepare tree = .ok (prepare tree o.sanitizing o.convert) :=
    prepare_eq_ok_iff.mpr ⟨by omega, rfl⟩
  rw [outcome_render_of_prepare hprepared]
  apply exists_outcome_renderHypertext h
  rw [heightAll_rootChildren_prepare]
  omega

/-- A document that has been prepared is then rendered exactly if its hypertext stays within the
limit. The hypertext may be deeper than the document, by its tables and two levels at most. -/
theorem render_of_prepare (h : o.components = .empty) {tree : Doc.Node}
    {hypertext : Hypertext.Node} (hprepared : o.prepare tree = .ok hypertext) :
    hypertext.height ≤ levels tree + tree.tableNesting + 2 ∧
      ((∃ e, (render o tree).outcome = .ok e) ↔ hypertext.height ≤ o.maxDepth) ∧
      ((render o tree).outcome = .error (.depthExceeded o.maxDepth) ↔
        o.maxDepth < hypertext.height) := by
  obtain ⟨_, rfl⟩ := prepare_eq_ok_iff.mp hprepared
  rw [outcome_render_of_prepare hprepared]
  have hheight := heightAll_rootChildren_prepare tree o.sanitizing o.convert
  refine ⟨height_prepare_le tree o.sanitizing o.convert, ?_⟩
  by_cases hfits : (prepare tree o.sanitizing o.convert).height ≤ o.maxDepth
  · obtain ⟨e, he⟩ := exists_outcome_renderHypertext h _ (hheight ▸ hfits)
    simp [he, hfits]
  · have herror := outcome_renderHypertext_of_too_deep h _ (hheight ▸ Nat.not_le.mp hfits)
    simp [herror, Nat.not_le.mp hfits]

def codeTable : Doc.Node :=
  .parent .root [.parent .table [.parent .tableRow [.parent .tableCell [.leaf .code "x"]]]]

theorem levels_codeTable : levels codeTable = 4 := by
  rw [levels_eq]
  decide

theorem render_of_prepare_codeTable :
    let o : Options := { maxDepth := 6 }
    ∃ hypertext, o.prepare codeTable = .ok hypertext ∧
      hypertext.height = levels codeTable + codeTable.tableNesting + 2 ∧
      (render o codeTable).outcome = .error (.depthExceeded 6) := by
  intro o
  have hprepared : o.prepare codeTable = .ok (prepare codeTable .enabled {}) :=
    prepare_eq_ok_iff.mpr ⟨by rw [levels_codeTable]; decide, rfl⟩
  have hheight : (prepare codeTable .enabled {}).height = 7 := by with_unfolding_all rfl
  refine ⟨_, hprepared, ?_, ?_⟩
  · rw [hheight, levels_codeTable]
    rfl
  · exact ((render_of_prepare rfl hprepared).2.2).mpr (by rw [hheight]; decide)

def loneCode : Doc.Node := .parent .root [.leaf .code "x"]

/-- A limit of one level lets a code block be prepared, but its text stands three levels down. -/
theorem prepare_loneCode_too_deep :
    let o : Options := { maxDepth := 1 }
    let hypertext : Hypertext.Node := .root [.element ⟨"pre", .empty,
      [.element ⟨"code", .empty, [.text "x\n"], none⟩], some .code⟩]
    o.prepare loneCode = .ok hypertext ∧ o.maxDepth < hypertext.height ∧
      (render o loneCode).outcome = .error (.depthExceeded o.maxDepth) := by
  intro o hypertext
  have hlevels : levels loneCode = 1 := by
    rw [levels_eq]
    decide
  have hprepared : o.prepare loneCode = .ok hypertext :=
    prepare_eq_ok_iff.mpr ⟨Nat.le_of_eq hlevels, by with_unfolding_all rfl⟩
  have hdeep : o.maxDepth < hypertext.height := by decide
  rw [outcome_render_of_prepare hprepared]
  exact ⟨hprepared, hdeep, outcome_renderHypertext_of_too_deep rfl hypertext hdeep⟩

/-- A document beyond the limit is rejected, whatever is made of it; one that stays away from the
limit by two levels and one for each table on the way down is rendered. -/
theorem outcome_render_of_levels (h : o.components = .empty) (tree : Doc.Node) :
    (o.maxDepth < levels tree →
        (render o tree).outcome = .error (.depthExceeded o.maxDepth)) ∧
      (levels tree + tree.tableNesting + 2 ≤ o.maxDepth →
        ∃ e, (render o tree).outcome = .ok e) := by
  constructor
  · intro hdeep
    rw [render, Options.prepare, if_pos hdeep]
  · exact exists_outcome_render h

theorem outcome_render_codeTable :
    (render { maxDepth := 3 } codeTable).outcome = .error (.depthExceeded 3) ∧
      ∃ e, (render { maxDepth := 7 } codeTable).outcome = .ok e := by
  have htables : codeTable.tableNesting = 1 := rfl
  constructor
  · exact (outcome_render_of_levels rfl codeTable).1 (by rw [levels_codeTable]; decide)
  · exact (outcome_render_of_levels rfl codeTable).2 (by rw [levels_codeTable, htables])

end KeyedMarkup.Render
