import KeyedMarkup.Hypertext.Sanitize
import KeyedMarkup.Proofs.Hypertext.Conversion

/-!
# The text of a document in its hypertext

A document shows the texts and the code that it holds. Conversion puts blanks between them and
nothing else, and it neither loses nor moves any. Sanitizing takes the text of stripped elements
away and leaves the rest, so all text stays if no node of the document becomes such an element.
-/

namespace KeyedMarkup

/-- A text with all spaces and line breaks deleted. -/
def withoutBlanks (s : String) : String :=
  .ofList (s.toList.filter fun c => c != ' ' && c != '\n')

@[simp] theorem withoutBlanks_append (s t : String) :
    withoutBlanks (s ++ t) = withoutBlanks s ++ withoutBlanks t := by
  simp [withoutBlanks]

@[simp] theorem withoutBlanks_space : withoutBlanks " " = "" := by decide

@[simp] theorem withoutBlanks_newline : withoutBlanks "\n" = "" := by decide

namespace Doc.Node

mutual

/-- The text that a reader sees. Raw HTML does not count, and what stands at the place of a row or
of a cell is taken for one. -/
def visible : Node → String
  | ⟨kind, _, value, children⟩ =>
      match kind with
      | .text | .inlineCode | .code => value.getD ""
      | .html | .image | .lineBreak | .thematicBreak => ""
      | .table => visibleRows children
      | .tableRow => visibleCells children
      | .other _ =>
          match children, value with
          | [], some s => s
          | _, _ => visibleAll children
      | _ => visibleAll children

def visibleAll : List Node → String
  | [] => ""
  | n :: rest => n.visible ++ visibleAll rest

/-- The text of the children of a table. -/
def visibleRows : List Node → String
  | [] => ""
  | ⟨_, _, _, children⟩ :: rest => visibleCells children ++ visibleRows rest

/-- The text of the children of a row. -/
def visibleCells : List Node → String
  | [] => ""
  | ⟨_, _, _, children⟩ :: rest => visibleAll children ++ visibleCells rest

end

end Doc.Node

namespace Hypertext

namespace Node

variable (gone : String → Bool)

mutual

/-- The texts of a node in document order, those in elements with the given tags left out. -/
def textOutside : Node → String
  | .root children => textOutsideAll children
  | .element ⟨tag, _, children, _⟩ => if gone tag then "" else textOutsideAll children
  | .text value => value
  | .raw _ => ""

def textOutsideAll : List Node → String
  | [] => ""
  | n :: rest => n.textOutside ++ textOutsideAll rest

end

theorem textOutsideAll_append (ms ns : List Node) :
    textOutsideAll gone (ms ++ ns) = textOutsideAll gone ms ++ textOutsideAll gone ns := by
  induction ms with
  | nil => simp [textOutsideAll]
  | cons m ms ih => simp only [List.cons_append, textOutsideAll, ih, String.append_assoc]

variable (s : Schema)

mutual

theorem textOutsideAll_clean (n : Node) :
    textOutsideAll (fun _ => false) (clean s n) = n.textOutside s.strip.contains := by
  cases n with
  | root children => exact textOutsideAll_cleanAll children
  | text value => simp [clean, textOutsideAll, textOutside]
  | raw value => rfl
  | element e =>
      obtain ⟨tag, properties, children, kind⟩ := e
      have hchildren := textOutsideAll_cleanAll children
      rw [clean, textOutside]
      cases s.strip.contains tag with
      | true => rfl
      | false =>
          cases s.tags.contains tag with
          | true => simpa [textOutsideAll, textOutside] using hchildren
          | false => exact hchildren

theorem textOutsideAll_cleanAll (ns : List Node) :
    textOutsideAll (fun _ => false) (cleanAll s ns) = textOutsideAll s.strip.contains ns := by
  cases ns with
  | nil => rfl
  | cons n rest =>
      rw [cleanAll, textOutsideAll_append, textOutsideAll_clean n, textOutsideAll_cleanAll rest,
        textOutsideAll]

end

end Node

namespace Convert

open Node

/-- The text of some nodes outside of elements with the given tags, blanks deleted. -/
def inked (gone : String → Bool) (ns : List Node) : String :=
  withoutBlanks (textOutsideAll gone ns)

section Parts

variable {gone : String → Bool}

theorem inked_append (ms ns : List Node) :
    inked gone (ms ++ ns) = inked gone ms ++ inked gone ns := by
  simp [inked, textOutsideAll_append]

theorem inked_cons (n : Node) (rest : List Node) :
    inked gone (n :: rest) = inked gone [n] ++ inked gone rest :=
  inked_append [n] rest

theorem inked_text (value : String) : inked gone [.text value] = withoutBlanks value := by
  simp [inked, textOutsideAll, textOutside]

theorem inked_element {e : Element} (htag : gone e.tag = false) :
    inked gone [.element e] = inked gone e.children := by
  obtain ⟨tag, properties, children, kind⟩ := e
  have htag : gone tag = false := htag
  simp [inked, textOutsideAll, textOutside, htag]

theorem inked_spaced {ms ns : List Node} (h : Spaced ms ns) : inked gone ms = inked gone ns := by
  induction h with
  | nil => rfl
  | keep n _ ih => rw [inked_cons, ih, ← inked_cons]
  | newline _ ih => rw [inked_cons, ih, inked_text, withoutBlanks_newline, String.empty_append]

variable (hown : ∀ tag ∈ ownTags, gone tag = false)
include hown

theorem inked_codeBlock (n : Doc.Node) :
    inked gone (codeBlock n).children = withoutBlanks n.ownText := by
  obtain ⟨properties, hchildren⟩ := children_codeBlock n
  have hcode : gone "code" = false := hown "code" (by decide)
  rw [hchildren, inked_element hcode]
  dsimp only
  split
  next hempty =>
    rw [String.isEmpty_iff.mp hempty]
    rfl
  next => rw [inked_text, withoutBlanks_append, withoutBlanks_newline, String.append_empty]

theorem inked_checkbox (n : Doc.Node) : inked gone (checkbox n) = "" := by
  have hinput : gone "input" = false := hown "input" (by decide)
  rcases checkbox_eq n with hnone | ⟨properties, hbox⟩
  · rw [hnone]
    rfl
  · rw [hbox, inked_cons, inked_element hinput, inked_text, withoutBlanks_space]
    rfl

theorem inked_tableSections (head : Option Node) (body : List Node) :
    inked gone (tableSections head body) = inked gone (head.toList ++ body) := by
  have hthead : gone "thead" = false := hown "thead" (by decide)
  have htbody : gone "tbody" = false := hown "tbody" (by decide)
  rw [tableSections_eq, inked_append, inked_append]
  congr 1
  · cases head with
    | none => rfl
    | some row => exact (inked_element hthead).trans (inked_spaced (spaced_looseLines [row]))
  · cases body with
    | nil => rfl
    | cons row rest =>
        exact (inked_element htbody).trans (inked_spaced (spaced_looseLines (row :: rest)))

variable (options : ConvertOptions)

theorem inked_sections (ns : List Doc.Node) :
    inked gone (sections options ns) =
      inked gone (rowsFrom options (ns.head?.any isHeader) ns) := by
  obtain ⟨head, body, hsections, hrows⟩ := exists_sections_eq options ns
  rw [hsections, ← hrows]
  exact inked_tableSections hown head body

theorem inked_row (header : Bool) (n : Doc.Node) :
    inked gone [row options header n] = inked gone (cells options header n.children) := by
  have htr : gone "tr" = false := hown "tr" (by decide)
  rw [row_eq, rowElement, inked_element htr]
  exact inked_spaced (spaced_looseLines _)

theorem inked_cell (header : Bool) (n : Doc.Node) :
    inked gone [cell options header n] = inked gone (all options n.children) := by
  have htag : gone (if header || isHeader n then "th" else "td") = false := by
    split
    · exact hown "th" (by decide)
    · exact hown "td" (by decide)
  rw [cell_eq, cellElement, inked_element htag]
  rfl

/-- An element shows what its node does if the children do. -/
theorem inked_content (n : Doc.Node) (hkind : isElement n = true)
    (hall : inked gone (all options n.children) = withoutBlanks (Doc.Node.visibleAll n.children))
    (hrows : ∀ header, inked gone (rowsFrom options header n.children) =
      withoutBlanks (Doc.Node.visibleRows n.children))
    (hcells : inked gone (cells options false n.children) =
      withoutBlanks (Doc.Node.visibleCells n.children)) :
    inked gone (content options n) = withoutBlanks n.visible := by
  obtain ⟨kind, properties, value, children⟩ := n
  cases kind with
  | root | text | html => cases hkind
  | lineBreak | image | thematicBreak => rfl
  | inlineCode => exact inked_text _
  | code => exact inked_codeBlock hown _
  | listItem =>
      rw [content, inked_append, inked_checkbox hown, String.empty_append]
      exact hall
  | table => exact (inked_sections hown options children).trans (hrows _)
  | tableRow => exact hcells
  | heading | paragraph | emphasis | strong | delete | link | blockquote | list | tableCell =>
      exact hall
  | other name =>
      cases children with
      | cons child rest => exact hall
      | nil =>
          cases value with
          | none => exact hall
          | some s => cases hkind

theorem inked_one_of_children (n : Doc.Node) (htags : ∀ tag, MayHaveTag n tag → gone tag = false)
    (hall : inked gone (all options n.children) = withoutBlanks (Doc.Node.visibleAll n.children))
    (hrows : ∀ header, inked gone (rowsFrom options header n.children) =
      withoutBlanks (Doc.Node.visibleRows n.children))
    (hcells : inked gone (cells options false n.children) =
      withoutBlanks (Doc.Node.visibleCells n.children)) :
    inked gone (one options n) = withoutBlanks n.visible := by
  cases outcome_one options n with
  | group hkind hone =>
      obtain ⟨kind, properties, value, children⟩ := n
      obtain rfl : kind = .root := hkind
      rw [hone, inked_spaced (spaced_lines _)]
      exact hall
  | text hkind hone =>
      obtain ⟨kind, properties, value, children⟩ := n
      rw [hone, inked_text]
      rcases hkind with hkind | ⟨⟨name, hkind⟩, hleaf⟩
      · obtain rfl : kind = .text := hkind
        rfl
      · obtain rfl : kind = .other name := hkind
        cases value with
        | none => cases hleaf
        | some s =>
            cases children with
            | nil => rfl
            | cons child rest => cases hleaf
  | raw hkind hone =>
      obtain ⟨kind, properties, value, children⟩ := n
      obtain rfl : kind = .html := hkind
      rcases hone with hone | hone
      · rw [hone]
        rfl
      · rw [hone]
        rfl
  | element hkind e hone htag _ hcontent =>
      rw [inked_spaced hone, inked_element (htags e.tag htag), inked_spaced hcontent]
      exact inked_content hown options n hkind hall hrows hcells

end Parts

/-- Whether none of the given tags is one that conversion makes of nodes. -/
structure Spares (gone : String → Bool) (ns : List Doc.Node) : Prop where
  own : ∀ tag ∈ ownTags, gone tag = false
  named : ∀ n ∈ ns, ∀ tag, MayHaveTag n tag → gone tag = false

section Documents

variable {gone : String → Bool}

theorem spares_cons {n : Doc.Node} {ns : List Doc.Node} :
    Spares gone (n :: ns) ↔
      (∀ tag, MayHaveTag n tag → gone tag = false) ∧ Spares gone ns := by
  constructor
  · intro h
    obtain ⟨hnode, hrest⟩ := List.forall_mem_cons.mp h.named
    exact ⟨hnode, h.own, hrest⟩
  · intro ⟨hnode, hrest⟩
    exact ⟨hrest.own, List.forall_mem_cons.mpr ⟨hnode, hrest.named⟩⟩

theorem spares_append {ms ns : List Doc.Node} :
    Spares gone (ms ++ ns) ↔ Spares gone ms ∧ Spares gone ns := by
  constructor
  · intro h
    obtain ⟨hleft, hright⟩ := List.forall_mem_append.mp h.named
    exact ⟨⟨h.own, hleft⟩, h.own, hright⟩
  · intro ⟨hleft, hright⟩
    exact ⟨hleft.own, List.forall_mem_append.mpr ⟨hleft.named, hright.named⟩⟩

variable (options : ConvertOptions)

mutual

/-- The hypertext of a node shows the text of the node, unless some node in it becomes one of the
elements whose text is left out. -/
theorem inked_one (n : Doc.Node) (h : Spares gone n.preorder) :
    inked gone (one options n) = withoutBlanks n.visible := by
  obtain ⟨kind, properties, value, children⟩ := n
  rw [Doc.Node.preorder, spares_cons] at h
  exact inked_one_of_children h.2.own options ⟨kind, properties, value, children⟩ h.1
    (inked_all children h.2) (fun header => inked_rowsFrom header children h.2)
    (inked_cells false children h.2)

theorem inked_all (ns : List Doc.Node) (h : Spares gone (Doc.Node.preorderAll ns)) :
    inked gone (all options ns) = withoutBlanks (Doc.Node.visibleAll ns) := by
  cases ns with
  | nil => rfl
  | cons n rest =>
      rw [Doc.Node.preorderAll, spares_append] at h
      rw [all, inked_append, inked_one n h.1, inked_all rest h.2, Doc.Node.visibleAll,
        withoutBlanks_append]

theorem inked_rowsFrom (header : Bool) (ns : List Doc.Node)
    (h : Spares gone (Doc.Node.preorderAll ns)) :
    inked gone (rowsFrom options header ns) = withoutBlanks (Doc.Node.visibleRows ns) := by
  cases ns with
  | nil => rfl
  | cons n rest =>
      obtain ⟨kind, properties, value, children⟩ := n
      rw [Doc.Node.preorderAll, Doc.Node.preorder, spares_append, spares_cons] at h
      -- A row is taken for one whatever its kind, so the induction goes on at its children.
      rw [rowsFrom, rows_eq, inked_cons, inked_row h.2.own, inked_cells header children h.1.2,
        inked_rowsFrom false rest h.2, Doc.Node.visibleRows, withoutBlanks_append]

theorem inked_cells (header : Bool) (ns : List Doc.Node)
    (h : Spares gone (Doc.Node.preorderAll ns)) :
    inked gone (cells options header ns) = withoutBlanks (Doc.Node.visibleCells ns) := by
  cases ns with
  | nil => rfl
  | cons n rest =>
      obtain ⟨kind, properties, value, children⟩ := n
      rw [Doc.Node.preorderAll, Doc.Node.preorder, spares_append, spares_cons] at h
      rw [cells, inked_cons, inked_cell h.2.own, inked_all children h.1.2,
        inked_cells header rest h.2, Doc.Node.visibleCells, withoutBlanks_append]

end

end Documents

theorem headingTag_ne (level : Nat) {tag : String} (htag : tag.toList.head? ≠ some 'h') :
    "h" ++ toString level ≠ tag := by
  rintro rfl
  exact htag (by rw [String.toList_append]; rfl)

/-- A tag that neither conversion itself nor a heading gives is the name of an unknown kind. -/
theorem not_mayHaveTag_of_ne {n : Doc.Node} {tag : String} (hname : n.kind ≠ .other tag)
    (hown : tag ∉ ownTags) (hhead : tag.toList.head? ≠ some 'h') : ¬ MayHaveTag n tag := by
  obtain ⟨kind, properties, value, children⟩ := n
  intro hmay
  cases kind with
  | heading => exact headingTag_ne _ hhead hmay.symm
  | other name =>
      obtain rfl : tag = name := hmay
      exact hname rfl
  | _ => exact hown hmay

theorem spares_github {ns : List Doc.Node}
    (h : ∀ n ∈ ns, n.kind ≠ .other "script" ∧ n.kind ≠ .other "style") :
    Spares Schema.github.strip.contains ns where
  own := by decide +kernel
  named := by
    intro n hn tag hmay
    rw [Bool.eq_false_iff, Ne, Names.contains_iff]
    intro hstrip
    have htag : tag = "script" ∨ tag = "style" := by simpa [Schema.github] using hstrip
    rcases htag with rfl | rfl
    · exact not_mayHaveTag_of_ne (h n hn).1 (by decide) (by decide) hmay
    · exact not_mayHaveTag_of_ne (h n hn).2 (by decide) (by decide) hmay

end Convert

end Hypertext

end KeyedMarkup
