import KeyedMarkup.Proofs.Doc.Tables
import KeyedMarkup.Proofs.Hypertext.Conversion

/-!
# Tables in hypertext

A table that the conversion comes to becomes a `table` element, wherever it stands. Its header is
the only row of the head and has header cells, and its other rows make up the body. Each cell has
the alignment that the builder gave it.
-/

namespace KeyedMarkup.Hypertext

open Doc (Align alignProperties)

/-- Whether a node is a row element with the cells of a row in their order, each aligned as its
column asks for. -/
def ShowsRow (options : ConvertOptions) (columns : List (Option Align)) (header : Bool)
    (row : Doc.Node) (n : Node) : Prop :=
  ∃ cells : List Node, n = .element ⟨"tr", .empty, Convert.looseLines cells, some .tableRow⟩ ∧
    cells.length = row.children.length ∧
    ∀ (place : Nat) (cell : Doc.Node), row.children[place]? = some cell →
      cells[place]? = some (.element ⟨if header then "th" else "td",
        alignProperties (columns[place]?).join, Convert.all options cell.children,
        some .tableCell⟩)

/-- Whether an element is a table element with the rows of a table in their order: the first one
in the head, with header cells, and the others in the body, if there are any. -/
def ShowsGrid (options : ConvertOptions) (columns : List (Option Align)) (table : Doc.Node)
    (e : Element) : Prop :=
  ∃ head body first others, table.children = head :: body ∧
    ShowsRow options columns true head first ∧
    List.Forall₂ (ShowsRow options columns false) body others ∧
    e = ⟨"table", .empty, Convert.looseLines
      (.element ⟨"thead", .empty, Convert.looseLines [first], none⟩ ::
        if others.isEmpty then []
        else [.element ⟨"tbody", .empty, Convert.looseLines others, none⟩]), some .table⟩

namespace Convert

/-- The nodes below a node that are converted next, each as its kind asks for. What stands in a
table is made a row of it, and what stands in a row a cell, whatever their kinds are. -/
def next (n : Doc.Node) : List Doc.Node :=
  match n.kind with
  | .text | .html | .lineBreak | .inlineCode | .code | .image | .thematicBreak => []
  | .table => n.children.flatMap fun row => row.children.flatMap (·.children)
  | .tableRow => n.children.flatMap (·.children)
  | _ => n.children

/-- Whether the conversion of a node comes to another one. -/
inductive Reaches : Doc.Node → Doc.Node → Prop where
  | self (n : Doc.Node) : Reaches n n
  | step {n c m : Doc.Node} (hc : c ∈ next n) (h : Reaches c m) : Reaches n m

variable (options : ConvertOptions)

theorem one_subset_all {n : Doc.Node} {ns : List Doc.Node} (h : n ∈ ns) :
    one options n ⊆ all options ns := by
  induction ns with
  | nil => cases h
  | cons m rest ih =>
      rw [all]
      rcases List.mem_cons.mp h with rfl | h
      · exact List.subset_append_left _ _
      · exact List.Subset.trans (ih h) (List.subset_append_right _ _)

theorem cells_eq_map (header : Bool) (ns : List Doc.Node) :
    cells options header ns = ns.map (cell options header) := by
  induction ns with
  | nil => rfl
  | cons n rest ih => rw [cells, ih, List.map_cons]

theorem rows_eq_map (ns : List Doc.Node) : rows options ns = ns.map (row options false) := by
  induction ns with
  | nil => rfl
  | cons n rest ih => rw [rows, ih, List.map_cons]

open Node (nodesOfAll nodesOfAll_subset mem_nodesOfAll nodes_element)

theorem nodesOfAll_one_subset_cells {c : Doc.Node} {ns : List Doc.Node} (header : Bool)
    (hc : c ∈ ns.flatMap (·.children)) :
    nodesOfAll (one options c) ⊆ nodesOfAll (cells options header ns) := by
  obtain ⟨n, hn, hc⟩ := List.mem_flatMap.mp hc
  intro x hx
  have hall := nodesOfAll_subset (one_subset_all options hc) hx
  rw [cells_eq_map, mem_nodesOfAll]
  refine ⟨_, List.mem_map_of_mem hn, ?_⟩
  rw [cell_eq, cellElement, nodes_element]
  exact List.mem_cons_of_mem _ hall

theorem nodesOfAll_one_subset_row {c : Doc.Node} {n : Doc.Node} (header : Bool)
    (hc : c ∈ n.children.flatMap (·.children)) :
    nodesOfAll (one options c) ⊆ (row options header n).nodes := by
  intro x hx
  have hcells := nodesOfAll_one_subset_cells options header hc hx
  rw [row_eq, rowElement, nodes_element]
  exact List.mem_cons_of_mem _ (nodesOfAll_subset (spaced_looseLines _).subset hcells)

theorem nodesOfAll_tableSections {head : Option Node} {body : List Node} :
    nodesOfAll (head.toList ++ body) ⊆ nodesOfAll (tableSections head body) := by
  intro x hx
  rw [Node.nodesOfAll_append, List.mem_append] at hx
  rw [tableSections_eq, Node.nodesOfAll_append, List.mem_append]
  rcases hx with hx | hx
  · left
    cases head with
    | none => exact hx
    | some row =>
        rw [Option.map_some, Option.toList_some, nodesOfAll, nodes_element]
        refine List.mem_append_left _ (List.mem_cons_of_mem _ ?_)
        exact nodesOfAll_subset (spaced_looseLines _).subset hx
  · right
    cases body with
    | nil => cases hx
    | cons row rest =>
        rw [List.isEmpty_cons, if_neg nofun, nodesOfAll, nodes_element]
        refine List.mem_append_left _ (List.mem_cons_of_mem _ ?_)
        exact nodesOfAll_subset (spaced_looseLines _).subset hx

theorem nodesOfAll_one_subset_sections {c : Doc.Node} {ns : List Doc.Node}
    (hc : c ∈ ns.flatMap fun row => row.children.flatMap (·.children)) :
    nodesOfAll (one options c) ⊆ nodesOfAll (sections options ns) := by
  obtain ⟨n, hn, hc⟩ := List.mem_flatMap.mp hc
  obtain ⟨head, body, hsections, hrows⟩ := exists_sections_eq options ns
  have hrow : ∃ header, row options header n ∈ head.toList ++ body := by
    rw [hrows]
    cases ns with
    | nil => cases hn
    | cons m rest =>
        rw [rowsFrom, rows_eq_map]
        rcases List.mem_cons.mp hn with rfl | hn
        · exact ⟨_, List.mem_cons_self⟩
        · exact ⟨false, List.mem_cons_of_mem _ (List.mem_map_of_mem hn)⟩
  obtain ⟨header, hmem⟩ := hrow
  intro x hx
  rw [hsections]
  exact nodesOfAll_tableSections
    (mem_nodesOfAll.mpr ⟨_, hmem, nodesOfAll_one_subset_row options header hc hx⟩)

theorem nodesOfAll_one_subset_content {n c : Doc.Node} (hc : c ∈ next n) :
    nodesOfAll (one options c) ⊆ nodesOfAll (content options n) := by
  obtain ⟨kind, properties, value, children⟩ := n
  have hall : c ∈ children → nodesOfAll (one options c) ⊆ nodesOfAll (all options children) :=
    fun hc => nodesOfAll_subset (one_subset_all options hc)
  cases kind with
  | text | html | lineBreak | inlineCode | code | image | thematicBreak => cases hc
  | table => exact nodesOfAll_one_subset_sections options hc
  | tableRow => exact nodesOfAll_one_subset_cells options false hc
  | listItem =>
      exact List.Subset.trans (hall hc) (nodesOfAll_subset (List.subset_append_right _ _))
  | _ => exact hall hc

theorem nodesOfAll_one_subset {n c : Doc.Node} (hc : c ∈ next n) :
    nodesOfAll (one options c) ⊆ nodesOfAll (one options n) := by
  have hcontent := nodesOfAll_one_subset_content options hc
  cases outcome_one options n with
  | group hkind hone =>
      rw [content, hkind] at hcontent
      rw [hone]
      exact List.Subset.trans hcontent (nodesOfAll_subset (spaced_lines _).subset)
  | text hkind hone =>
      -- A text has nothing below it that would be converted.
      obtain ⟨kind, properties, value, children⟩ := n
      rcases hkind with hkind | ⟨⟨name, hkind⟩, hleaf⟩
      · obtain rfl : kind = .text := hkind
        cases hc
      · obtain rfl : kind = .other name := hkind
        have hchildren : children = [] := by
          rw [Doc.Node.isLeaf, Bool.and_eq_true, List.isEmpty_iff] at hleaf
          exact hleaf.2
        rw [hchildren] at hc
        cases hc
  | raw hkind _ =>
      rw [next, hkind] at hc
      cases hc
  | element _ e hone _ _ hspaced =>
      refine List.Subset.trans hcontent fun x hx => ?_
      apply nodesOfAll_subset hone.subset
      rw [nodesOfAll, nodes_element]
      exact List.mem_append_left _
        (List.mem_cons_of_mem _ (nodesOfAll_subset hspaced.subset hx))

theorem Reaches.nodesOfAll_subset {n m : Doc.Node} (h : Reaches n m) :
    nodesOfAll (one options m) ⊆ nodesOfAll (one options n) := by
  induction h with
  | self n => exact List.Subset.refl _
  | step hc _ ih => exact List.Subset.trans ih (nodesOfAll_one_subset options hc)

theorem cell_eq_of_isCell {columns : List (Option Align)} {place : Nat} {n : Doc.Node}
    (h : n.IsCell columns place) (header : Bool) :
    cell options header n = .element ⟨if header then "th" else "td",
      alignProperties (columns[place]?).join, all options n.children, some .tableCell⟩ := by
  have hplain : isHeader n = false := by
    rw [isHeader, h.properties]
    cases (columns[place]?).join <;> rfl
  have hkept : kept n ["header"] = alignProperties (columns[place]?).join := by
    rw [kept, h.properties]
    cases (columns[place]?).join <;> rfl
  rw [cell_eq, cellElement, hplain, Bool.or_false, ← hkept, ← h.kind]
  rfl

theorem showsRow_row {columns : List (Option Align)} {header : Bool} {n : Doc.Node}
    (h : n.IsRow columns header) : ShowsRow options columns header n (row options header n) := by
  have hkept : kept n ["header"] = .empty := by
    rw [kept, h.properties]
    cases header <;> rfl
  refine ⟨cells options header n.children, ?_, ?_, fun place c hc => ?_⟩
  · rw [row_eq, rowElement, ← hkept, ← h.kind]
    rfl
  · rw [cells_eq_map, List.length_map]
  · rw [cells_eq_map, List.getElem?_map, hc, Option.map_some,
      cell_eq_of_isCell options (h.cells place c hc)]

theorem exists_one_table {columns : List (Option Align)} {table : Doc.Node}
    (h : table.IsGrid columns) :
    ∃ e, one options table = [.element e] ∧ ShowsGrid options columns table e := by
  obtain ⟨head, body, hchildren, hhead, hbody⟩ := h.rows
  obtain ⟨hkind, hproperties, _⟩ := h
  obtain ⟨kind, properties, value, children⟩ := table
  obtain rfl : kind = .table := hkind
  obtain rfl : properties = .empty := hproperties
  obtain rfl : children = head :: body := hchildren
  have hheader : isHeader head = true := by
    rw [isHeader, hhead.properties]
    rfl
  have hothers : List.Forall₂ (ShowsRow options columns false) body
      (body.map (row options false)) := by
    rw [List.forall₂_map_right_iff, List.forall₂_same]
    exact fun n hn => showsRow_row options (hbody n hn)
  refine ⟨_, by rw [one], head, body, row options true head, body.map (row options false), rfl,
    showsRow_row options hhead, hothers, ?_⟩
  rw [sections, hheader, if_pos rfl, tableSections_eq, rows_eq_map]
  rfl

end Convert

variable (options : ConvertOptions)

/-- The cells of a table in which the first row has more of them than the head and the second one
has none. -/
def raggedHead : List (List Doc.Event) := [[.text "A"], []]

def raggedRows : List (List (List Doc.Event)) :=
  [[[.start .emphasis, .text "b", .stop], [.task true], [.code "c"]], []]

def raggedTable (columns : List (Option Align)) : List Doc.Event :=
  .start (.table columns) :: Doc.gridEvents raggedHead raggedRows ++ [.stop]

def tableBlocks : List Doc.Event :=
  .start .blockquote :: raggedTable [some .left, none] ++ .stop ::
    (.start (.image "u" "") :: raggedTable [some .right] ++ .stop ::
      raggedTable [none, some .center])

theorem tabular_raggedTable (columns : List (Option Align)) :
    Doc.Tabular (raggedTable columns) := by
  have htableless : ∀ body ∈ raggedHead ++ raggedRows.flatten, Doc.Tableless body := by
    unfold Doc.Tableless
    decide
  have hnested : ∀ body ∈ raggedHead ++ raggedRows.flatten, Doc.Nested body :=
    List.forall_mem_cons.mpr ⟨.leaf rfl .nil, List.forall_mem_cons.mpr ⟨.nil,
      List.forall_mem_cons.mpr ⟨.pair .emphasis (.leaf rfl .nil) .nil,
        List.forall_mem_cons.mpr ⟨.leaf rfl .nil,
          List.forall_mem_singleton.mpr (.leaf rfl .nil)⟩⟩⟩⟩
  exact .table columns (fun body h => (hnested body h).tabular (htableless body h)) htableless .nil

end KeyedMarkup.Hypertext
