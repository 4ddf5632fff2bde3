import KeyedMarkup.Markdown.Document
import KeyedMarkup.Proofs.Doc.Accepted
import KeyedMarkup.Proofs.Doc.Numbers
import KeyedMarkup.Proofs.Hypertext.Deletion
import KeyedMarkup.Proofs.Hypertext.Extension
import KeyedMarkup.Proofs.Hypertext.Text

/-!
# What sanitizing leaves alone

GitHub's schema has a list of tags of its own, and conversion makes elements without looking at it.
All the same no recognized construct of a document is lost when its hypertext is sanitized: every
tag that conversion makes of it is in the list and none is stripped. So nothing goes but raw HTML,
and attributes.
-/

namespace KeyedMarkup

namespace Doc.Node

/-- Whether no heading has a NaN for its depth. -/
def HeadingsMeasured (n : Node) : Prop :=
  ∀ m ∈ n.nodes, m.kind = .heading →
    ∀ x, m.properties.number? "depth" = some x → x.isNaN = false

theorem HasNoNaN.headingsMeasured {n : Node} (h : n.HasNoNaN) : n.HeadingsMeasured := by
  intro m hm _ x hx
  obtain ⟨value, hvalue, hnumber⟩ := Option.bind_eq_some_iff.mp hx
  have hmem : x ∈ m.properties.numbers :=
    List.mem_filterMap.mpr ⟨_, Dict.mem_entries_of_get? hvalue, hnumber⟩
  exact h x (List.mem_flatMap.mpr ⟨m, hm, hmem⟩)

theorem Accepted.hasNoNaN {n : Node} {room : Nat} (h : n.Accepted room) : n.HasNoNaN :=
  fun x hx => Binary64.isNaN_of_isFinite (h.finite x hx)

end Doc.Node

namespace Hypertext

namespace Node

mutual

def bare : Node → Node
  | .root children => .root (bareAll children)
  | .element ⟨tag, _, children, kind⟩ => .element ⟨tag, .empty, bareAll children, kind⟩
  | .text value => .text value
  | .raw value => .raw value

def bareAll : List Node → List Node
  | [] => []
  | n :: rest => n.bare :: bareAll rest

end

theorem bareAll_append (ms ns : List Node) : bareAll (ms ++ ns) = bareAll ms ++ bareAll ns := by
  induction ms with
  | nil => rfl
  | cons m ms ih => rw [List.cons_append, bareAll, bareAll, ih, List.cons_append]

end Node

open Node

namespace Schema

variable (s : Schema)

/-- Whether elements with a tag do not stay, whatever becomes of their content. -/
def rejects (tag : String) : Bool := s.strip.contains tag || !s.tags.contains tag

/-- Whether nothing of a node goes but raw HTML and attributes. -/
def Retains (n : Node) : Prop := bareAll (clean s n) = bareAll (withoutAll isRaw [n])

theorem retains_text (value : String) : s.Retains (.text value) := rfl

theorem retains_raw (value : String) : s.Retains (.raw value) := rfl

variable {s}

theorem bareAll_cleanAll {ns : List Node} (h : ∀ n ∈ ns, s.Retains n) :
    bareAll (cleanAll s ns) = bareAll (withoutAll isRaw ns) := by
  induction ns with
  | nil => rfl
  | cons n rest ih =>
      rw [List.forall_mem_cons] at h
      rw [cleanAll, bareAll_append, h.1, ih h.2, ← bareAll_append, ← withoutAll_cons]

theorem retains_element {e : Element} (htag : s.rejects e.tag = false)
    (h : ∀ c ∈ e.children, s.Retains c) : s.Retains (.element e) := by
  obtain ⟨tag, properties, children, kind⟩ := e
  obtain ⟨hstrip, htags⟩ := Bool.or_eq_false_iff.mp htag
  have hstrip : s.strip.contains tag = false := hstrip
  have htags : s.tags.contains tag = true := by simpa using htags
  have hchildren := bareAll_cleanAll h
  rw [Retains, withoutAll_of_not_gone rfl, without, clean, hstrip, htags, if_neg Bool.false_ne_true,
    if_pos rfl, bareAll, bareAll, bareAll, bareAll, bare, bare, hchildren]

theorem retains_spaced {ms ns : List Node} (h : Spaced ms ns) (hns : ∀ n ∈ ns, s.Retains n) :
    ∀ m ∈ ms, s.Retains m := by
  induction h with
  | nil => exact hns
  | keep n _ ih =>
      rw [List.forall_mem_cons] at hns ⊢
      exact ⟨hns.1, ih hns.2⟩
  | newline _ ih => exact List.forall_mem_cons.mpr ⟨s.retains_text "\n", ih hns⟩

end Schema

namespace Convert

open Schema

section Parts

variable {s : Schema} (hown : ∀ tag ∈ ownTags, s.rejects tag = false)
include hown

theorem retains_codeBlock (n : Doc.Node) : ∀ c ∈ (codeBlock n).children, s.Retains c := by
  obtain ⟨properties, hchildren⟩ := children_codeBlock n
  have hcode : s.rejects "code" = false := hown "code" (by decide)
  rw [hchildren, List.forall_mem_singleton]
  apply retains_element hcode
  dsimp only
  split
  · exact nofun
  · exact List.forall_mem_singleton.mpr (s.retains_text _)

theorem retains_checkbox (n : Doc.Node) : ∀ c ∈ checkbox n, s.Retains c := by
  have hinput : s.rejects "input" = false := hown "input" (by decide)
  rcases checkbox_eq n with hnone | ⟨properties, hbox⟩
  · rw [hnone]
    exact nofun
  · rw [hbox, List.forall_mem_cons, List.forall_mem_singleton]
    exact ⟨retains_element hinput nofun, s.retains_text " "⟩

theorem retains_tableSections {head : Option Node} {body : List Node}
    (h : ∀ row ∈ head.toList ++ body, s.Retains row) :
    ∀ c ∈ tableSections head body, s.Retains c := by
  have hthead : s.rejects "thead" = false := hown "thead" (by decide)
  have htbody : s.rejects "tbody" = false := hown "tbody" (by decide)
  obtain ⟨hhead, hbody⟩ := List.forall_mem_append.mp h
  rw [tableSections_eq, List.forall_mem_append]
  constructor
  · cases head with
    | none => exact nofun
    | some row =>
        exact List.forall_mem_singleton.mpr
          (retains_element hthead (retains_spaced (spaced_looseLines [row]) hhead))
  · split
    · exact nofun
    · exact List.forall_mem_singleton.mpr
        (retains_element htbody (retains_spaced (spaced_looseLines body) hbody))

variable (options : ConvertOptions)

theorem retains_row (header : Bool) (n : Doc.Node)
    (h : ∀ c ∈ cells options header n.children, s.Retains c) :
    s.Retains (row options header n) := by
  have htr : s.rejects "tr" = false := hown "tr" (by decide)
  rw [row_eq]
  exact retains_element htr (retains_spaced (spaced_looseLines _) h)

theorem retains_cell (header : Bool) (n : Doc.Node)
    (h : ∀ c ∈ all options n.children, s.Retains c) : s.Retains (cell options header n) := by
  have htag : s.rejects (if header || isHeader n then "th" else "td") = false := by
    split
    · exact hown "th" (by decide)
    · exact hown "td" (by decide)
  rw [cell_eq]
  exact retains_element htag h

theorem retains_content (n : Doc.Node) (hall : ∀ c ∈ all options n.children, s.Retains c)
    (hrows : ∀ header, ∀ c ∈ rowsFrom options header n.children, s.Retains c)
    (hcells : ∀ c ∈ cells options false n.children, s.Retains c) :
    ∀ c ∈ content options n, s.Retains c := by
  obtain ⟨kind, properties, value, children⟩ := n
  cases kind with
  | lineBreak | image | thematicBreak => exact nofun
  | inlineCode => exact List.forall_mem_singleton.mpr (s.retains_text _)
  | code => exact retains_codeBlock hown _
  | listItem => exact List.forall_mem_append.mpr ⟨retains_checkbox hown _, hall⟩
  | table =>
      obtain ⟨head, body, hsections, hbody⟩ := exists_sections_eq options children
      rw [content, hsections]
      exact retains_tableSections hown (hbody ▸ hrows _)
  | tableRow => exact hcells
  | _ => exact hall

end Parts

variable {s : Schema} (options : ConvertOptions)

mutual

/-- What conversion makes of a node stays if no tag that it makes is rejected. -/
theorem retains_one (n : Doc.Node) (h : Spares s.rejects n.preorder) :
    ∀ c ∈ one options n, s.Retains c := by
  obtain ⟨kind, properties, value, children⟩ := n
  rw [Doc.Node.preorder, spares_cons] at h
  have hall := retains_all children h.2
  cases outcome_one options ⟨kind, properties, value, children⟩ with
  | group _ hone =>
      rw [hone]
      exact retains_spaced (spaced_lines _) hall
  | text _ hone =>
      rw [hone]
      exact List.forall_mem_singleton.mpr (s.retains_text _)
  | raw _ hone =>
      rcases hone with hone | hone
      · rw [hone]
        exact nofun
      · rw [hone]
        exact List.forall_mem_singleton.mpr (s.retains_raw _)
  | element _ e hone htag _ hcontent =>
      have hchildren := retains_content h.2.own options ⟨kind, properties, value, children⟩ hall
        (fun header => retains_rowsFrom header children h.2) (retains_cells false children h.2)
      apply retains_spaced hone
      exact List.forall_mem_singleton.mpr
        (retains_element (h.1 e.tag htag) (retains_spaced hcontent hchildren))

theorem retains_all (ns : List Doc.Node) (h : Spares s.rejects (Doc.Node.preorderAll ns)) :
    ∀ c ∈ all options ns, s.Retains c := by
  cases ns with
  | nil => exact nofun
  | cons n rest =>
      rw [Doc.Node.preorderAll, spares_append] at h
      exact List.forall_mem_append.mpr ⟨retains_one n h.1, retains_all rest h.2⟩

theorem retains_rowsFrom (header : Bool) (ns : List Doc.Node)
    (h : Spares s.rejects (Doc.Node.preorderAll ns)) :
    ∀ c ∈ rowsFrom options header ns, s.Retains c := by
  cases ns with
  | nil => exact nofun
  | cons n rest =>
      obtain ⟨kind, properties, value, children⟩ := n
      rw [Doc.Node.preorderAll, Doc.Node.preorder, spares_append, spares_cons] at h
      rw [rowsFrom, rows_eq, List.forall_mem_cons]
      exact ⟨retains_row h.2.own options header _ (retains_cells header children h.1.2),
        retains_rowsFrom false rest h.2⟩

theorem retains_cells (header : Bool) (ns : List Doc.Node)
    (h : Spares s.rejects (Doc.Node.preorderAll ns)) :
    ∀ c ∈ cells options header ns, s.Retains c := by
  cases ns with
  | nil => exact nofun
  | cons n rest =>
      obtain ⟨kind, properties, value, children⟩ := n
      rw [Doc.Node.preorderAll, Doc.Node.preorder, spares_append, spares_cons] at h
      rw [cells, List.forall_mem_cons]
      exact ⟨retains_cell h.2.own options header _ (retains_all children h.1.2),
        retains_cells header rest h.2⟩

end

/-- The tags of all elements that are made of recognized kinds of nodes. -/
def recognizedTags : List String := ownTags ++ ["h1", "h2", "h3", "h4", "h5", "h6"]

theorem headingLevel_mem {n : Doc.Node}
    (h : ∀ x, n.properties.number? "depth" = some x → x.isNaN = false) :
    1 ≤ headingLevel n ∧ headingLevel n ≤ 6 := by
  unfold headingLevel
  cases hdepth : n.properties.number? "depth" with
  | none => decide
  | some x => exact Binary64.clampWhole_mem (h x hdepth) (by decide) (by decide)

theorem mem_recognizedTags {n : Doc.Node} (hkind : n.kind.recognized = true)
    (hdepth : n.kind = .heading →
      ∀ x, n.properties.number? "depth" = some x → x.isNaN = false)
    {tag : String} (h : MayHaveTag n tag) : tag ∈ recognizedTags := by
  obtain ⟨kind, properties, value, children⟩ := n
  cases kind with
  | heading =>
      have hlevel := headingLevel_mem (hdepth rfl)
      have htag : tag = "h" ++ toString (headingLevel ⟨.heading, properties, value, children⟩) := h
      rw [htag]
      generalize headingLevel ⟨.heading, properties, value, children⟩ = level at hlevel
      have hcases : level = 1 ∨ level = 2 ∨ level = 3 ∨ level = 4 ∨ level = 5 ∨ level = 6 := by
        omega
      rcases hcases with rfl | rfl | rfl | rfl | rfl | rfl <;> decide
  | other name => cases hkind
  | _ => exact List.mem_append_left _ h

end Convert

namespace Schema

theorem rejects_github : ∀ tag ∈ Convert.recognizedTags, Schema.github.rejects tag = false := by
  decide +kernel

theorem ExtendsGithub.rejects {s : Schema} (h : s.ExtendsGithub) {tag : String}
    (htag : tag ∈ Convert.recognizedTags) : s.rejects tag = false := by
  have hwithin := h.within
  obtain ⟨hstrip, htags⟩ := Bool.or_eq_false_iff.mp (rejects_github tag htag)
  have htags : tag ∈ Schema.github.tags.toList := by simpa using htags
  have hallowed : s.tags.contains tag = true := Names.contains_iff.mpr (hwithin.tags tag htags)
  rw [Schema.rejects, ← hwithin.alike.strip, hstrip, hallowed]
  rfl

theorem ExtendsGithub.spares {s : Schema} (h : s.ExtendsGithub) {n : Doc.Node}
    (hkinds : ∀ m ∈ n.nodes, m.kind.recognized = true) (hdepths : n.HeadingsMeasured) :
    Convert.Spares s.rejects n.preorder where
  own := fun _ htag => h.rejects (List.mem_append_left _ htag)
  named := by
    rw [← Doc.Node.nodes_eq_preorder]
    intro m hm tag htag
    exact h.rejects (Convert.mem_recognizedTags (hkinds m hm) (hdepths m hm) htag)

end Schema

/-- Neither a text in Markdown nor a written tree gives a heading a NaN for its depth; and if there
is none and all kinds are recognized, the hypertext of a document keeps all elements and texts when
it is sanitized by GitHub's schema or one that extends it, raw HTML and attributes aside. -/
theorem bare_sanitize_ofDoc :
    (∀ gfm text, (Doc.Node.ofMarkdown gfm text).HeadingsMeasured) ∧
    (∀ text n, Doc.Node.ofJsonText? text = some n → n.HeadingsMeasured) ∧
    ∀ n : Doc.Node, (∀ m ∈ n.nodes, m.kind.recognized = true) → n.HeadingsMeasured →
      ∀ (options : ConvertOptions) (s : Schema), s.ExtendsGithub →
        ((ofDoc options n).sanitize s).bare = ((ofDoc options n).without isRaw).bare := by
  refine ⟨?_, ?_, ?_⟩
  · intro gfm text
    exact (Doc.Node.hasNoNaN_ofEvents _).headingsMeasured
  · intro text n hread
    exact (Doc.Node.accepted_of_ofJsonText? hread).hasNoNaN.headingsMeasured
  · intro n hkinds hdepths options s hs
    have hretained := Convert.retains_one options n (hs.spares hkinds hdepths)
    rw [sanitize, ofDoc, clean, bare, without, bare, Schema.bareAll_cleanAll hretained]

def deepHeading : Doc.Node :=
  .parent .root [⟨.heading, .ofList [("depth", .number (.ofNat 9))], none, [.leaf .text "a"]⟩,
    .leaf .html "<hr>", .parent .table [.parent .paragraph [.leaf .text "b"]]]

theorem bare_sanitize_deepHeading :
    let schema := Schema.github.allowTag "script"
    (∀ m ∈ deepHeading.nodes, m.kind.recognized = true) ∧ deepHeading.HeadingsMeasured ∧
      schema.ExtendsGithub ∧
      ((ofDoc ⟨true⟩ deepHeading).sanitize schema).bare =
        ((ofDoc ⟨true⟩ deepHeading).without isRaw).bare := by
  intro schema
  have hkinds : ∀ m ∈ deepHeading.nodes, m.kind.recognized = true := by
    rw [Doc.Node.nodes_eq_preorder]
    decide
  have hdepths : deepHeading.HeadingsMeasured := by
    have hnumbers : deepHeading.numbers = [.ofNat 9] := by
      rw [Doc.Node.numbers, Doc.Node.nodes_eq_preorder]
      rfl
    apply Doc.Node.HasNoNaN.headingsMeasured
    rw [Doc.Node.HasNoNaN, hnumbers, List.forall_mem_singleton]
    exact Binary64.isNaN_ofNat 9
  have hschema : schema.ExtendsGithub := .allowTag "script" .github
  exact ⟨hkinds, hdepths, hschema,
    bare_sanitize_ofDoc.2.2 deepHeading hkinds hdepths ⟨true⟩ schema hschema⟩

end Hypertext

end KeyedMarkup
