import KeyedMarkup.Proofs.Hypertext.Deletion
import KeyedMarkup.Render.Options

/-!
# The switch for raw HTML

A document is converted with its raw HTML or without it. In between there is more to see than the
raw HTML itself, since every node that is kept is set apart from its neighbours by line breaks.
These breaks stay when sanitizing takes the raw HTML away, but nothing else does: whichever way the
switch is set, a sanitized document is the same without breaks.
-/

namespace KeyedMarkup

namespace Hypertext

open Node

/-- Whether two lists of nodes are equal but for breaks and raw HTML anywhere in them. -/
def Agree (ms ns : List Node) : Prop :=
  withoutAll isBreakOrRaw ms = withoutAll isBreakOrRaw ns

namespace Agree

theorem append {ms ns ms' ns' : List Node} (h : Agree ms ns) (h' : Agree ms' ns') :
    Agree (ms ++ ms') (ns ++ ns') := by
  rw [Agree, withoutAll_append, withoutAll_append, h, h']

theorem spaced {ms ns ms' ns' : List Node} (hms : Spaced ms ms') (hns : Spaced ns ns')
    (h : Agree ms' ns') : Agree ms ns := by
  rw [Agree, withoutAll_spaced rfl hms, withoutAll_spaced rfl hns, h]

theorem element {tag : String} {properties : Properties} {kind : Option Doc.Kind}
    {children children' : List Node} (h : Agree children children') :
    Agree [.element ⟨tag, properties, children, kind⟩]
      [.element ⟨tag, properties, children', kind⟩] := by
  rw [Agree, withoutAll_of_not_gone rfl, withoutAll_of_not_gone rfl, without, without, h]

end Agree

namespace Convert

theorem agree_rowGroup {tag : String} {rows rows' : List Node} (h : Agree rows rows') :
    Agree [.element ⟨tag, .empty, looseLines rows, none⟩]
      [.element ⟨tag, .empty, looseLines rows', none⟩] :=
  .element (h.spaced (spaced_looseLines rows) (spaced_looseLines rows'))

theorem agree_tableSections {head head' : Option Node} {body body' : List Node}
    (hhead : Option.Rel (fun m n => Agree [m] [n]) head head')
    (hempty : body.isEmpty = body'.isEmpty) (hbody : Agree body body') :
    Agree (tableSections head body) (tableSections head' body') := by
  rw [tableSections_eq, tableSections_eq, hempty]
  apply Agree.append
  · cases hhead with
    | none => rfl
    | some hrow => exact agree_rowGroup hrow
  · split
    · rfl
    · exact agree_rowGroup hbody

variable (options options' : ConvertOptions)

theorem isEmpty_rows (ns : List Doc.Node) : (rows options ns).isEmpty = ns.isEmpty := by
  cases ns with
  | nil => rfl
  | cons n rest => rfl

theorem agree_row (header : Bool) (n : Doc.Node)
    (h : Agree (cells options header n.children) (cells options' header n.children)) :
    Agree [row options header n] [row options' header n] := by
  rw [row_eq, row_eq]
  exact .element (h.spaced (spaced_looseLines _) (spaced_looseLines _))

theorem agree_cell (header : Bool) (n : Doc.Node)
    (h : Agree (all options n.children) (all options' n.children)) :
    Agree [cell options header n] [cell options' header n] := by
  rw [cell_eq, cell_eq]
  exact .element h

/-- What does not become an element is a text, its children, or raw HTML that need not be there. -/
theorem agree_of_not_isElement {n : Doc.Node} (h : isElement n = false)
    (hall : Agree (all options n.children) (all options' n.children)) :
    Agree (one options n) (one options' n) := by
  have hraw (o : ConvertOptions) (s : String) :
      withoutAll isBreakOrRaw (if o.allowDangerousHtml then [.raw s] else []) = [] := by
    split <;> rfl
  obtain ⟨kind, properties, value, children⟩ := n
  cases kind with
  | root =>
      rw [one, one]
      exact hall.spaced (spaced_lines _) (spaced_lines _)
  | text => rw [one, one, Agree]
  | html => rw [one, one, Agree, hraw, hraw]
  | other name =>
      have hleaf : Doc.Node.isLeaf ⟨.other name, properties, value, children⟩ = true := by
        rwa [isElement, Bool.not_eq_false'] at h
      cases value with
      | none => cases hleaf
      | some s =>
          cases children with
          | cons child rest => cases hleaf
          | nil => rw [one, one, Agree]
  | _ => cases h

theorem agree_content (n : Doc.Node)
    (hall : Agree (all options n.children) (all options' n.children))
    (hsections : Agree (sections options n.children) (sections options' n.children))
    (hcells : Agree (cells options false n.children) (cells options' false n.children)) :
    Agree (content options n) (content options' n) := by
  obtain ⟨kind, properties, value, children⟩ := n
  cases kind with
  | lineBreak | image | thematicBreak | inlineCode | code => rfl
  | listItem => exact Agree.append rfl hall
  | table => exact hsections
  | tableRow => exact hcells
  | _ => exact hall

mutual

/-- A node is converted to the same under all options, breaks and raw HTML apart. -/
theorem agree_one (n : Doc.Node) : Agree (one options n) (one options' n) := by
  obtain ⟨kind, properties, value, children⟩ := n
  cases helement : isElement ⟨kind, properties, value, children⟩ with
  | false => exact agree_of_not_isElement options options' helement (agree_all children)
  | true =>
      obtain ⟨tag, ps, _, hbecomes⟩ := exists_becomes helement
      obtain ⟨cs, hone, hcontent⟩ := hbecomes options
      obtain ⟨cs', hone', hcontent'⟩ := hbecomes options'
      have hagree := agree_content options options' ⟨kind, properties, value, children⟩
        (agree_all children) (agree_sections children) (agree_cells false children)
      exact (Agree.element (hagree.spaced hcontent hcontent')).spaced hone hone'

theorem agree_all (ns : List Doc.Node) : Agree (all options ns) (all options' ns) := by
  cases ns with
  | nil => rfl
  | cons n rest =>
      rw [all, all]
      exact (agree_one n).append (agree_all rest)

theorem agree_sections (ns : List Doc.Node) :
    Agree (sections options ns) (sections options' ns) := by
  cases ns with
  | nil => rfl
  | cons n rest =>
      obtain ⟨kind, properties, value, children⟩ := n
      have hrow (header : Bool) := agree_row options options' header
        ⟨kind, properties, value, children⟩ (agree_cells header children)
      have hempty : (rows options rest).isEmpty = (rows options' rest).isEmpty := by
        rw [isEmpty_rows, isEmpty_rows]
      rw [sections, sections]
      split
      · exact agree_tableSections (.some (hrow true)) hempty (agree_rows rest)
      · exact agree_tableSections .none rfl ((hrow false).append (agree_rows rest))

theorem agree_rows (ns : List Doc.Node) : Agree (rows options ns) (rows options' ns) := by
  cases ns with
  | nil => rfl
  | cons n rest =>
      obtain ⟨kind, properties, value, children⟩ := n
      exact (agree_row options options' false _ (agree_cells false children)).append
        (agree_rows rest)

theorem agree_cells (header : Bool) (ns : List Doc.Node) :
    Agree (cells options header ns) (cells options' header ns) := by
  cases ns with
  | nil => rfl
  | cons n rest =>
      obtain ⟨kind, properties, value, children⟩ := n
      exact (agree_cell options options' header _ (agree_all children)).append
        (agree_cells header rest)

end

end Convert

theorem without_sanitize_ofDoc (options options' : ConvertOptions) (s : Schema) (n : Doc.Node) :
    ((ofDoc options n).sanitize s).without isBreak =
      ((ofDoc options' n).sanitize s).without isBreak := by
  rw [sanitize, sanitize, ofDoc, ofDoc, clean, clean, without, without, withoutAll_cleanAll,
    withoutAll_cleanAll, Convert.agree_one options options' n]

end Hypertext

namespace Render

open Hypertext.Node

/-- A document that is sanitized is prepared to the same with its raw HTML and without it, line
breaks apart. -/
theorem without_isBreak_prepare (tree : Doc.Node) {sanitizing : Sanitizing}
    (h : sanitizing.isEnabled = true) :
    (prepare tree sanitizing ⟨true⟩).without isBreak =
      (prepare tree sanitizing ⟨false⟩).without isBreak := by
  cases sanitizing with
  | disabled => cases h
  | enabled => exact Hypertext.without_sanitize_ofDoc _ _ .github tree
  | schema s => exact Hypertext.without_sanitize_ofDoc _ _ s tree

def markedQuotation : Doc.Node :=
  .parent .root [.leaf .html "<hr>", .parent .blockquote [.leaf .html "<i>"]]

theorem without_isBreak_prepare_markedQuotation :
    let kept := prepare markedQuotation .enabled ⟨true⟩
    let dropped := prepare markedQuotation .enabled ⟨false⟩
    Sanitizing.enabled.isEnabled = true ∧
      kept.children.length = 2 ∧ dropped.children.length = 1 ∧
      kept.without isBreak = dropped.without isBreak := by
  have henabled : Sanitizing.enabled.isEnabled = true := rfl
  refine ⟨henabled, ?_, ?_, without_isBreak_prepare markedQuotation henabled⟩
  · decide +kernel
  · decide +kernel

end Render

end KeyedMarkup
