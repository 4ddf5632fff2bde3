import KeyedMarkup.Hypertext.Convert
import KeyedMarkup.Proofs.Doc.Traversal
import KeyedMarkup.Proofs.Hypertext.Nodes

/-!
# What conversion makes

Blocks are set on lines of their own by line breaks between them, and nothing else is added to the
content of an element but these. The tags of the elements are those of the conversion itself, the
levels of headings, and the names of unknown kinds.
-/

namespace KeyedMarkup.Hypertext

/-- Whether nodes are others with line breaks put in. -/
inductive Spaced : List Node → List Node → Prop
  | nil : Spaced [] []
  | keep (n : Node) {ms ns : List Node} : Spaced ms ns → Spaced (n :: ms) (n :: ns)
  | newline {ms ns : List Node} : Spaced ms ns → Spaced (.text "\n" :: ms) ns

namespace Spaced

theorem refl (ns : List Node) : Spaced ns ns := by
  induction ns with
  | nil => exact .nil
  | cons n ns ih => exact .keep n ih

theorem append {ms ns ms' ns' : List Node} (h : Spaced ms ns) (h' : Spaced ms' ns') :
    Spaced (ms ++ ms') (ns ++ ns') := by
  induction h with
  | nil => exact h'
  | keep n _ ih => exact .keep n ih
  | newline _ ih => exact .newline ih

theorem subset {ms ns : List Node} (h : Spaced ms ns) : ns ⊆ ms := by
  induction h with
  | nil => exact List.Subset.refl _
  | keep n _ ih => exact List.cons_subset_cons n ih
  | newline _ ih => exact List.Subset.trans ih (List.subset_cons_self _ _)

end Spaced

namespace Convert

theorem spaced_lines (ns : List Node) : Spaced (lines ns) ns := by
  induction ns with
  | nil => exact .nil
  | cons n rest ih =>
      cases rest with
      | nil => exact .refl [n]
      | cons m rest => exact .keep n (.newline ih)

theorem spaced_looseLines (ns : List Node) : Spaced (looseLines ns) ns := by
  cases ns with
  | nil => exact .newline .nil
  | cons n rest =>
      have hlast : Spaced (lines (n :: rest) ++ [.text "\n"]) (n :: rest ++ []) :=
        (spaced_lines (n :: rest)).append (.newline .nil)
      rw [List.append_nil] at hlast
      exact .newline hlast

theorem spaced_tight (options : ConvertOptions) (previous : Option Doc.Kind)
    (ns : List Doc.Node) : Spaced (tight options previous ns) (all options ns) := by
  induction ns generalizing previous with
  | nil => exact .nil
  | cons n rest ih =>
      have hnode : Spaced (one options n ++ tight options (some n.kind) rest)
          (all options (n :: rest)) := by
        rw [all]
        exact (Spaced.refl (one options n)).append (ih (some n.kind))
      cases previous with
      | none => exact hnode
      | some kind =>
          rw [tight]
          split
          · exact .newline hnode
          · exact hnode

def kept (n : Doc.Node) (consumed : List String) : Properties :=
  n.properties.filter fun name _ => !consumed.contains name

/-- The properties of an element that got a copy of a property of the node. -/
def copied (n : Doc.Node) (name target : String) (properties : Properties) : Properties :=
  match n.property? name with
  | some value => properties.insert target value
  | none => properties

theorem copyTo_eq (n : Doc.Node) (name target : String) (e : Element) :
    copyTo n name target e = { e with properties := copied n name target e.properties } := by
  obtain ⟨tag, properties, children, kind⟩ := e
  unfold copyTo copied
  cases n.property? name <;> rfl

theorem listElement_eq (n : Doc.Node) :
    ∃ tag properties, (tag = "ol" ∨ tag = "ul") ∧
      ∀ items, listElement n items = ⟨tag, properties, looseLines items, some n.kind⟩ := by
  have htag (ordered : Bool) : (if ordered then "ol" else "ul") = "ol" ∨
      (if ordered then "ol" else "ul") = "ul" := by
    cases ordered with
    | true => exact .inl rfl
    | false => exact .inr rfl
  unfold listElement
  dsimp only
  split
  next x _ =>
    split
    · exact ⟨_, (kept n ["ordered", "start", "spread"]).insert "start" (.number x), htag _,
        fun _ => rfl⟩
    · exact ⟨_, kept n ["ordered", "start", "spread"], htag _, fun _ => rfl⟩
  next => exact ⟨_, kept n ["ordered", "start", "spread"], htag _, fun _ => rfl⟩

theorem children_codeBlock (n : Doc.Node) :
    ∃ properties, (codeBlock n).children =
      [.element ⟨"code", properties,
        if n.ownText.isEmpty then [] else [.text (n.ownText ++ "\n")], none⟩] :=
  ⟨_, rfl⟩

theorem checkbox_eq (n : Doc.Node) :
    checkbox n = [] ∨
      ∃ properties, checkbox n = [.element ⟨"input", properties, [], none⟩, .text " "] := by
  unfold checkbox
  cases n.properties.flag? "checked" with
  | none => exact .inl rfl
  | some checked => exact .inr ⟨_, rfl⟩

theorem tableSections_eq (head : Option Node) (body : List Node) :
    tableSections head body =
      (head.map fun row => .element ⟨"thead", .empty, looseLines [row], none⟩).toList ++
        if body.isEmpty then [] else [.element ⟨"tbody", .empty, looseLines body, none⟩] :=
  rfl

theorem row_eq (options : ConvertOptions) (header : Bool) (n : Doc.Node) :
    row options header n = rowElement n (cells options header n.children) := by
  obtain ⟨kind, properties, value, children⟩ := n
  rw [row]

theorem cell_eq (options : ConvertOptions) (header : Bool) (n : Doc.Node) :
    cell options header n = cellElement n header (all options n.children) := by
  obtain ⟨kind, properties, value, children⟩ := n
  rw [cell]

/-- Rows of which only the first may be a header. -/
def rowsFrom (options : ConvertOptions) (header : Bool) : List Doc.Node → List Node
  | [] => []
  | n :: rest => row options header n :: rows options rest

theorem rows_eq (options : ConvertOptions) (ns : List Doc.Node) :
    rows options ns = rowsFrom options false ns := by
  cases ns with
  | nil => rw [rows, rowsFrom]
  | cons n rest => rw [rows, rowsFrom]

theorem exists_sections_eq (options : ConvertOptions) (ns : List Doc.Node) :
    ∃ head body, sections options ns = tableSections head body ∧
      head.toList ++ body = rowsFrom options (ns.head?.any isHeader) ns := by
  cases ns with
  | nil => exact ⟨none, [], rfl, rfl⟩
  | cons n rest =>
      rw [sections, rowsFrom, List.head?_cons, Option.any_some]
      cases isHeader n with
      | true => exact ⟨some (row options true n), rows options rest, rfl, rfl⟩
      | false => exact ⟨none, row options false n :: rows options rest, rfl, rfl⟩

/-- The tags that are not taken from the node. -/
def ownTags : List String :=
  ["br", "p", "em", "strong", "del", "code", "pre", "a", "img", "blockquote", "ol", "ul", "li",
    "input", "hr", "table", "thead", "tbody", "tr", "th", "td"]

def MayHaveTag (n : Doc.Node) (tag : String) : Prop :=
  match n.kind with
  | .heading => tag = "h" ++ toString (headingLevel n)
  | .other name => tag = name
  | _ => tag ∈ ownTags

/-- Whether a node becomes an element, as everything does but roots, raw HTML and texts. -/
def isElement (n : Doc.Node) : Bool :=
  match n.kind with
  | .root | .text | .html => false
  | .other _ => !n.isLeaf
  | _ => true

variable (options : ConvertOptions)

/-- The content of the element of a node, line breaks apart. -/
def content (n : Doc.Node) : List Node :=
  match n.kind with
  | .lineBreak | .image | .thematicBreak => []
  | .inlineCode => [.text n.ownText]
  | .code => (codeBlock n).children
  | .listItem => checkbox n ++ all options n.children
  | .table => sections options n.children
  | .tableRow => cells options false n.children
  | _ => all options n.children

/-- What a node can become. -/
inductive Outcome (n : Doc.Node) : Prop
  | group (hkind : n.kind = .root) (h : one options n = lines (all options n.children))
  | text (hkind : n.kind = .text ∨ (∃ name, n.kind = .other name) ∧ n.isLeaf = true)
      (h : one options n = [.text n.ownText])
  | raw (hkind : n.kind = .html) (h : one options n = [] ∨ one options n = [.raw n.ownText])
  | element (hkind : isElement n = true) (e : Element) (h : Spaced (one options n) [.element e])
      (htag : MayHaveTag n e.tag) (hsame : e.kind = some n.kind)
      (hcontent : Spaced e.children (content options n))

/-- Whether a node becomes an element that has a given tag and given properties under all options.
Its children may differ with the options; they are the content with line breaks put in. -/
def Becomes (n : Doc.Node) (tag : String) (properties : Properties) : Prop :=
  ∀ options, ∃ children,
    Spaced (one options n) [.element ⟨tag, properties, children, some n.kind⟩] ∧
      Spaced children (content options n)

private theorem exists_becomes_of_eq {n : Doc.Node} (tag : String) (properties : Properties)
    (children : ConvertOptions → List Node) (htag : MayHaveTag n tag)
    (hone : ∀ options, one options n = [.element ⟨tag, properties, children options, some n.kind⟩])
    (hcontent : ∀ options, Spaced (children options) (content options n)) :
    ∃ tag properties, MayHaveTag n tag ∧ Becomes n tag properties :=
  ⟨tag, properties, htag, fun options => ⟨_, hone options ▸ .refl _, hcontent options⟩⟩

private theorem exists_becomes_of_elementOf {n : Doc.Node} (tag : String) (consumed : List String)
    (children : ConvertOptions → List Node) (htag : MayHaveTag n tag)
    (hone : ∀ options, one options n = [.element (elementOf n tag consumed (children options))])
    (hcontent : ∀ options, Spaced (children options) (content options n)) :
    ∃ tag properties, MayHaveTag n tag ∧ Becomes n tag properties :=
  exists_becomes_of_eq tag (kept n consumed) children htag hone hcontent

/-- The options have no influence on the tag and the properties of an element. -/
theorem exists_becomes {n : Doc.Node} (h : isElement n = true) :
    ∃ tag properties, MayHaveTag n tag ∧ Becomes n tag properties := by
  obtain ⟨kind, properties, value, children⟩ := n
  have hsame (options : ConvertOptions) :
      Spaced (all options children) (all options children) := .refl _
  cases kind with
  | root | text | html => cases h
  | lineBreak =>
      have htag : "br" ∈ ownTags := by decide
      exact ⟨"br", kept _ [], htag, fun _ => ⟨[], .keep _ (.newline .nil), .nil⟩⟩
  | heading =>
      exact exists_becomes_of_elementOf _ ["depth"] (all · children) rfl (fun _ => by rw [one])
        hsame
  | paragraph =>
      have htag : "p" ∈ ownTags := by decide
      exact exists_becomes_of_elementOf "p" [] (all · children) htag (fun _ => by rw [one]) hsame
  | emphasis =>
      have htag : "em" ∈ ownTags := by decide
      exact exists_becomes_of_elementOf "em" [] (all · children) htag (fun _ => by rw [one]) hsame
  | strong =>
      have htag : "strong" ∈ ownTags := by decide
      exact exists_becomes_of_elementOf "strong" [] (all · children) htag (fun _ => by rw [one])
        hsame
  | delete =>
      have htag : "del" ∈ ownTags := by decide
      exact exists_becomes_of_elementOf "del" [] (all · children) htag (fun _ => by rw [one]) hsame
  | inlineCode =>
      have htag : "code" ∈ ownTags := by decide
      exact exists_becomes_of_elementOf "code" [] (fun _ => [.text _]) htag (fun _ => by rw [one])
        (fun _ => .refl _)
  | code =>
      have htag : "pre" ∈ ownTags := by decide
      exact exists_becomes_of_elementOf "pre" ["lang", "meta"] (fun _ => (codeBlock _).children)
        htag (fun _ => by rw [one]; rfl) (fun _ => .refl _)
  | link =>
      have htag : "a" ∈ ownTags := by decide
      let n : Doc.Node := ⟨.link, properties, value, children⟩
      exact exists_becomes_of_eq "a"
        (copied n "title" "title" (copied n "url" "href" (kept n ["url", "title"])))
        (all · children) htag (fun _ => by rw [one, copyTo_eq, copyTo_eq]; rfl) hsame
  | image =>
      have htag : "img" ∈ ownTags := by decide
      let n : Doc.Node := ⟨.image, properties, value, children⟩
      exact exists_becomes_of_eq "img" (copied n "title" "title" (copied n "alt" "alt"
          (copied n "url" "src" (kept n ["url", "alt", "title"])))) (fun _ => []) htag
        (fun _ => by rw [one, copyTo_eq, copyTo_eq, copyTo_eq]; rfl) (fun _ => .nil)
  | blockquote =>
      have htag : "blockquote" ∈ ownTags := by decide
      exact exists_becomes_of_elementOf "blockquote" []
        (fun options => looseLines (all options children)) htag (fun _ => by rw [one])
        (fun _ => spaced_looseLines _)
  | list =>
      obtain ⟨tag, ps, htag, hlist⟩ := listElement_eq ⟨.list, properties, value, children⟩
      have hmem : tag ∈ ownTags := by rcases htag with rfl | rfl <;> decide
      exact exists_becomes_of_eq tag ps (fun options => looseLines (all options children)) hmem
        (fun _ => by rw [one, hlist]) (fun _ => spaced_looseLines _)
  | listItem =>
      have htag : "li" ∈ ownTags := by decide
      let n : Doc.Node := ⟨.listItem, properties, value, children⟩
      let items (options : ConvertOptions) : List Node :=
        if isLoose n then looseLines (all options children) else tight options none children
      have hitems (options : ConvertOptions) : Spaced (items options) (all options children) := by
        dsimp only [items]
        split
        · exact spaced_looseLines _
        · exact spaced_tight options none children
      exact exists_becomes_of_elementOf "li" ["checked", "spread"]
        (fun options => checkbox n ++ items options) htag (fun _ => by rw [one])
        (fun options => (Spaced.refl _).append (hitems options))
  | thematicBreak =>
      have htag : "hr" ∈ ownTags := by decide
      exact exists_becomes_of_elementOf "hr" [] (fun _ => []) htag (fun _ => by rw [one])
        (fun _ => .nil)
  | table =>
      have htag : "table" ∈ ownTags := by decide
      exact exists_becomes_of_elementOf "table" []
        (fun options => looseLines (sections options children)) htag (fun _ => by rw [one])
        (fun _ => spaced_looseLines _)
  | tableRow =>
      have htag : "tr" ∈ ownTags := by decide
      exact exists_becomes_of_elementOf "tr" ["header"]
        (fun options => looseLines (cells options false children)) htag (fun _ => by rw [one]; rfl)
        (fun _ => spaced_looseLines _)
  | tableCell =>
      have htag : (if isHeader ⟨.tableCell, properties, value, children⟩ then "th" else "td") ∈
          ownTags := by split <;> decide
      exact exists_becomes_of_elementOf _ ["header"] (all · children) htag
        (fun _ => by rw [one]; rfl) hsame
  | other name =>
      cases children with
      | cons child rest =>
          exact exists_becomes_of_elementOf name [] (all · (child :: rest)) rfl
            (fun _ => by rw [one]; simp) hsame
      | nil =>
          cases value with
          | some s => cases h
          | none =>
              exact exists_becomes_of_elementOf name [] (all · []) rfl (fun _ => by rw [one]; simp)
                hsame

theorem outcome_one (n : Doc.Node) : Outcome options n := by
  cases helement : isElement n with
  | true =>
      obtain ⟨tag, properties, htag, hbecomes⟩ := exists_becomes helement
      obtain ⟨children, hone, hcontent⟩ := hbecomes options
      exact .element helement _ hone htag rfl hcontent
  | false =>
      obtain ⟨kind, properties, value, children⟩ := n
      cases kind with
      | root => exact .group rfl (by rw [one])
      | text => exact .text (.inl rfl) (by rw [one])
      | html =>
          apply Outcome.raw rfl
          rw [one]
          cases options.allowDangerousHtml with
          | true => exact .inr rfl
          | false => exact .inl rfl
      | other name =>
          have hleaf : Doc.Node.isLeaf ⟨.other name, properties, value, children⟩ = true := by
            rwa [isElement, Bool.not_eq_false'] at helement
          cases value with
          | none => cases hleaf
          | some s =>
              cases children with
              | cons child rest => cases hleaf
              | nil => exact .text (.inr ⟨⟨name, rfl⟩, rfl⟩) (by rw [one]; rfl)
      | _ => cases helement

end Convert

end KeyedMarkup.Hypertext
