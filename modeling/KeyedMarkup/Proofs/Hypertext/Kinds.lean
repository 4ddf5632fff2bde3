import KeyedMarkup.Proofs.Hypertext.Conversion

/-!
# One element for each construct

A component for a kind is asked about every element that carries the kind. So each construct of a
document must become one such element, neither none nor two: the kinds of the elements, in document
order, are those of the nodes that become elements. What conversion adds of its own, the `code` of
a code block, the two groups of rows of a table and the check box of a task, carries no kind and
stands directly in the element that it belongs to.
-/

namespace KeyedMarkup

namespace Doc.Node

mutual

/-- The nodes of a tree that become elements, in document order. Some nodes hide what is below
them, and the children of a table and of a row count as rows and cells whatever they are. -/
def elementNodes : Node → List Node
  | ⟨kind, properties, value, children⟩ =>
      let n : Node := ⟨kind, properties, value, children⟩
      match kind with
      | .root => elementNodesAll children
      | .text | .html => []
      | .inlineCode | .code | .image | .lineBreak | .thematicBreak => [n]
      | .table => n :: rowNodes children
      | .tableRow => n :: cellNodes children
      | .other _ => if n.isLeaf then [] else n :: elementNodesAll children
      | _ => n :: elementNodesAll children

def elementNodesAll : List Node → List Node
  | [] => []
  | n :: rest => n.elementNodes ++ elementNodesAll rest

def rowNodes : List Node → List Node
  | [] => []
  | ⟨kind, properties, value, children⟩ :: rest =>
      ⟨kind, properties, value, children⟩ :: (cellNodes children ++ rowNodes rest)

def cellNodes : List Node → List Node
  | [] => []
  | ⟨kind, properties, value, children⟩ :: rest =>
      ⟨kind, properties, value, children⟩ :: (elementNodesAll children ++ cellNodes rest)

end

theorem rowNodes_cons (n : Node) (rest : List Node) :
    rowNodes (n :: rest) = n :: (cellNodes n.children ++ rowNodes rest) := by
  obtain ⟨kind, properties, value, children⟩ := n
  rw [rowNodes]

theorem cellNodes_cons (n : Node) (rest : List Node) :
    cellNodes (n :: rest) = n :: (elementNodesAll n.children ++ cellNodes rest) := by
  obtain ⟨kind, properties, value, children⟩ := n
  rw [cellNodes]

theorem preorderAll_cons (n : Node) (rest : List Node) :
    preorderAll (n :: rest) = n :: (preorderAll n.children ++ preorderAll rest) := by
  obtain ⟨kind, properties, value, children⟩ := n
  rw [preorderAll, preorder, List.cons_append]

mutual

theorem elementNodes_sublist (n : Node) : n.elementNodes.Sublist n.preorder := by
  obtain ⟨kind, properties, value, children⟩ := n
  have hall := elementNodesAll_sublist children
  rw [preorder]
  cases kind with
  | root => exact hall.cons _
  | text | html => exact List.nil_sublist _
  | inlineCode | code | image | lineBreak | thematicBreak =>
      exact (List.nil_sublist _).cons_cons _
  | table => exact (rowNodes_sublist children).cons_cons _
  | tableRow => exact (cellNodes_sublist children).cons_cons _
  | other name =>
      rw [elementNodes]
      split
      · exact List.nil_sublist _
      · exact hall.cons_cons _
  | heading | paragraph | emphasis | strong | delete | link | blockquote | list | listItem
  | tableCell => exact hall.cons_cons _

theorem elementNodesAll_sublist (ns : List Node) :
    (elementNodesAll ns).Sublist (preorderAll ns) := by
  cases ns with
  | nil => exact List.Sublist.refl _
  | cons n rest => exact (elementNodes_sublist n).append (elementNodesAll_sublist rest)

theorem rowNodes_sublist (ns : List Node) : (rowNodes ns).Sublist (preorderAll ns) := by
  cases ns with
  | nil => exact List.Sublist.refl _
  | cons n rest =>
      obtain ⟨kind, properties, value, children⟩ := n
      rw [rowNodes_cons, preorderAll_cons]
      exact ((cellNodes_sublist children).append (rowNodes_sublist rest)).cons_cons _

theorem cellNodes_sublist (ns : List Node) : (cellNodes ns).Sublist (preorderAll ns) := by
  cases ns with
  | nil => exact List.Sublist.refl _
  | cons n rest =>
      obtain ⟨kind, properties, value, children⟩ := n
      rw [cellNodes_cons, preorderAll_cons]
      exact ((elementNodesAll_sublist children).append (cellNodes_sublist rest)).cons_cons _

end

end Doc.Node

namespace Hypertext

namespace Node

def elementKind? : Node → Option Doc.Kind
  | .element e => e.kind
  | _ => none

def elementKinds (ns : List Node) : List Doc.Kind := (nodesOfAll ns).filterMap elementKind?

theorem elementKinds_append (ms ns : List Node) :
    elementKinds (ms ++ ns) = elementKinds ms ++ elementKinds ns := by
  rw [elementKinds, nodesOfAll_append, List.filterMap_append]
  rfl

theorem elementKinds_cons (n : Node) (rest : List Node) :
    elementKinds (n :: rest) = elementKinds [n] ++ elementKinds rest :=
  elementKinds_append [n] rest

theorem elementKinds_text (value : String) : elementKinds [.text value] = [] := rfl

theorem elementKinds_element (e : Element) :
    elementKinds [.element e] = e.kind.toList ++ elementKinds e.children := by
  obtain ⟨tag, properties, children, kind⟩ := e
  rw [elementKinds, nodesOfAll, nodes, nodesOfAll, List.append_nil, List.filterMap_cons]
  cases kind <;> rfl

theorem elementKinds_spaced {ms ns : List Node} (h : Spaced ms ns) :
    elementKinds ms = elementKinds ns := by
  induction h with
  | nil => rfl
  | @keep n ms ns _ ih => rw [elementKinds_cons n ms, elementKinds_cons n ns, ih]
  | @newline ms ns _ ih => rw [elementKinds_cons _ ms, elementKinds_text, List.nil_append, ih]

/-- Whether a node may stand directly in another one. A root never does, and an element without a
kind stands in an element with a certain tag. -/
def MayStandIn (n parent : Node) : Prop :=
  match n with
  | .root _ => False
  | .element e => e.kind = none → ∃ p, parent = .element p ∧
      (p.tag, e.tag) ∈ [("pre", "code"), ("table", "thead"), ("table", "tbody"), ("li", "input")]
  | .text _ | .raw _ => True

/-- Whether nodes may stand in a given one and all that is below them where it is. -/
def PlacedIn (parent : Node) (ns : List Node) : Prop :=
  (∀ c ∈ ns, c.MayStandIn parent) ∧ ∀ m ∈ nodesOfAll ns, ∀ c ∈ m.children, c.MayStandIn m

theorem PlacedIn.nil (parent : Node) : PlacedIn parent [] := ⟨nofun, nofun⟩

theorem placedIn_of_childless {parent n : Node} (hn : n.MayStandIn parent)
    (hnodes : n.nodes = [n]) (hchildren : n.children = []) : PlacedIn parent [n] := by
  constructor
  · intro c hc
    obtain rfl := List.mem_singleton.mp hc
    exact hn
  · intro m hm
    rw [nodesOfAll, hnodes] at hm
    obtain rfl := List.mem_singleton.mp hm
    rw [hchildren]
    intro c hc
    exact absurd hc List.not_mem_nil

theorem PlacedIn.text (parent : Node) (value : String) : PlacedIn parent [.text value] :=
  placedIn_of_childless trivial rfl rfl

theorem PlacedIn.raw (parent : Node) (value : String) : PlacedIn parent [.raw value] :=
  placedIn_of_childless trivial rfl rfl

theorem PlacedIn.append {parent : Node} {ms ns : List Node} (hms : PlacedIn parent ms)
    (hns : PlacedIn parent ns) : PlacedIn parent (ms ++ ns) := by
  constructor
  · rw [List.forall_mem_append]
    exact ⟨hms.1, hns.1⟩
  · rw [nodesOfAll_append, List.forall_mem_append]
    exact ⟨hms.2, hns.2⟩

theorem PlacedIn.element {parent : Node} {e : Element} (he : (Node.element e).MayStandIn parent)
    (hchildren : PlacedIn (.element e) e.children) : PlacedIn parent [.element e] := by
  constructor
  · intro c hc
    obtain rfl := List.mem_singleton.mp hc
    exact he
  · obtain ⟨tag, properties, children, kind⟩ := e
    rw [nodesOfAll, nodes, nodesOfAll, List.append_nil, List.forall_mem_cons]
    exact hchildren

theorem placedIn_cons {parent : Node} {n : Node} {rest : List Node} :
    PlacedIn parent (n :: rest) ↔ PlacedIn parent [n] ∧ PlacedIn parent rest := by
  unfold PlacedIn
  rw [List.forall_mem_cons, nodesOfAll, List.forall_mem_append, List.forall_mem_cons, nodesOfAll,
    nodesOfAll, List.append_nil]
  simp only [List.not_mem_nil, false_implies, implies_true, and_true]
  exact and_and_and_comm

theorem PlacedIn.spaced {parent : Node} {ms ns : List Node} (h : Spaced ms ns)
    (hns : PlacedIn parent ns) : PlacedIn parent ms := by
  induction h with
  | nil => exact hns
  | keep n _ ih =>
      obtain ⟨hn, hrest⟩ := placedIn_cons.mp hns
      exact placedIn_cons.mpr ⟨hn, ih hrest⟩
  | newline _ ih => exact placedIn_cons.mpr ⟨PlacedIn.text parent _, ih hns⟩

end Node

open Node

/-- Whether the elements of some trees are those of the given document nodes, where all of them
are placed in a parent. -/
structure Mirrors (parent : Node) (ns : List Doc.Node) (ms : List Node) : Prop where
  kinds : elementKinds ms = ns.map Doc.Node.kind
  placed : PlacedIn parent ms

namespace Mirrors

variable {parent : Node}

theorem nil : Mirrors parent [] [] := ⟨rfl, .nil parent⟩

theorem text (value : String) : Mirrors parent [] [.text value] := ⟨rfl, .text parent value⟩

theorem raw (value : String) : Mirrors parent [] [.raw value] := ⟨rfl, .raw parent value⟩

theorem append {ns ns' : List Doc.Node} {ms ms' : List Node} (h : Mirrors parent ns ms)
    (h' : Mirrors parent ns' ms') : Mirrors parent (ns ++ ns') (ms ++ ms') := by
  constructor
  · rw [elementKinds_append, h.kinds, h'.kinds, List.map_append]
  · exact h.placed.append h'.placed

theorem spaced {ns : List Doc.Node} {ms ms' : List Node} (hspaced : Spaced ms ms')
    (h : Mirrors parent ns ms') : Mirrors parent ns ms := by
  constructor
  · rw [elementKinds_spaced hspaced, h.kinds]
  · exact h.placed.spaced hspaced

theorem element {n : Doc.Node} {ns : List Doc.Node} {e : Element} (hkind : e.kind = some n.kind)
    (h : Mirrors (.element e) ns e.children) : Mirrors parent (n :: ns) [.element e] := by
  constructor
  · rw [elementKinds_element, hkind, h.kinds]
    rfl
  · apply PlacedIn.element _ h.placed
    intro hnone
    rw [hkind] at hnone
    cases hnone

theorem kindless {ns : List Doc.Node} {e : Element} (hnone : e.kind = none)
    (hplace : (Node.element e).MayStandIn parent) (h : Mirrors (.element e) ns e.children) :
    Mirrors parent ns [.element e] := by
  constructor
  · rw [elementKinds_element, hnone, h.kinds]
    rfl
  · exact PlacedIn.element hplace h.placed

end Mirrors

namespace Convert

theorem mirrors_codeBlock (n : Doc.Node) {e : Element} (htag : e.tag = "pre") :
    Mirrors (.element e) [] (codeBlock n).children := by
  obtain ⟨properties, hchildren⟩ := children_codeBlock n
  rw [hchildren]
  apply Mirrors.kindless rfl
  · intro _
    exact ⟨e, rfl, by simp [htag]⟩
  · dsimp only
    split
    · exact .nil
    · exact .text _

theorem mirrors_checkbox (n : Doc.Node) {e : Element} (htag : e.tag = "li") :
    Mirrors (.element e) [] (checkbox n) := by
  rcases checkbox_eq n with hnone | ⟨properties, hbox⟩
  · rw [hnone]
    exact .nil
  · rw [hbox]
    have hinput : Mirrors (.element e) [] [.element ⟨"input", properties, [], none⟩] := by
      apply Mirrors.kindless rfl _ .nil
      intro _
      exact ⟨e, rfl, by simp [htag]⟩
    exact hinput.append (.text " ")

theorem mirrors_rowGroup {tag : String} (hgroup : tag = "thead" ∨ tag = "tbody")
    {ns : List Doc.Node} {rows : List Node} {e : Element} (htag : e.tag = "table")
    (h : ∀ parent, Mirrors parent ns rows) :
    Mirrors (.element e) ns [.element ⟨tag, .empty, looseLines rows, none⟩] := by
  apply Mirrors.kindless rfl
  · intro _
    refine ⟨e, rfl, ?_⟩
    rcases hgroup with rfl | rfl <;> simp [htag]
  · exact (h _).spaced (spaced_looseLines rows)

theorem mirrors_tableSections {ns ns' : List Doc.Node} {head : Option Node} {body : List Node}
    {e : Element} (htag : e.tag = "table") (hhead : ∀ parent, Mirrors parent ns head.toList)
    (hbody : ∀ parent, Mirrors parent ns' body) :
    Mirrors (.element e) (ns ++ ns') (tableSections head body) := by
  rw [tableSections_eq]
  apply Mirrors.append
  · cases head with
    | none => exact hhead _
    | some row => exact mirrors_rowGroup (.inl rfl) htag hhead
  · split
    next hempty =>
      obtain rfl := List.isEmpty_iff.mp hempty
      exact hbody _
    next => exact mirrors_rowGroup (.inr rfl) htag hbody

variable (options : ConvertOptions)

theorem mirrors_row {parent : Node} {ns : List Doc.Node} (header : Bool) (n : Doc.Node)
    (h : ∀ parent, Mirrors parent ns (cells options header n.children)) :
    Mirrors parent (n :: ns) [row options header n] := by
  rw [row_eq]
  exact Mirrors.element rfl ((h _).spaced (spaced_looseLines _))

theorem mirrors_cell {parent : Node} {ns : List Doc.Node} (header : Bool) (n : Doc.Node)
    (h : ∀ parent, Mirrors parent ns (all options n.children)) :
    Mirrors parent (n :: ns) [cell options header n] := by
  rw [cell_eq]
  exact Mirrors.element rfl (h _)

theorem tag_of_spaced_one {n : Doc.Node} {e : Element}
    (h : Spaced (one options n) [.element e]) :
    (n.kind = .code → e.tag = "pre") ∧ (n.kind = .listItem → e.tag = "li") ∧
      (n.kind = .table → e.tag = "table") := by
  have hsingle {a : Element} (hsame : Spaced [.element a] [.element e]) : e.tag = a.tag := by
    cases hsame
    rfl
  obtain ⟨kind, properties, value, children⟩ := n
  refine ⟨?_, ?_, ?_⟩
  all_goals
    rintro rfl
    rw [one] at h
    exact hsingle h

/-- What is below a node that becomes an element comes to stand in that element. -/
theorem mirrors_content (n : Doc.Node) {e : Element} (hone : Spaced (one options n) [.element e])
    (helement : isElement n = true)
    (hall : ∀ parent, Mirrors parent (Doc.Node.elementNodesAll n.children)
      (all options n.children))
    (hrows : ∀ table : Element, table.tag = "table" →
      Mirrors (.element table) (Doc.Node.rowNodes n.children) (sections options n.children))
    (hcells : ∀ parent, Mirrors parent (Doc.Node.cellNodes n.children)
      (cells options false n.children)) :
    ∃ below, n.elementNodes = n :: below ∧ Mirrors (.element e) below (content options n) := by
  obtain ⟨hcode, hitem, htable⟩ := tag_of_spaced_one options hone
  obtain ⟨kind, properties, value, children⟩ := n
  cases kind with
  | root | text | html => cases helement
  | lineBreak | image | thematicBreak => exact ⟨[], rfl, .nil⟩
  | inlineCode => exact ⟨[], rfl, .text _⟩
  | code => exact ⟨[], rfl, mirrors_codeBlock _ (hcode rfl)⟩
  | listItem => exact ⟨_, rfl, (mirrors_checkbox _ (hitem rfl)).append (hall _)⟩
  | table => exact ⟨_, rfl, hrows e (htable rfl)⟩
  | tableRow => exact ⟨_, rfl, hcells _⟩
  | other name =>
      refine ⟨_, ?_, hall _⟩
      rw [Doc.Node.elementNodes]
      rw [isElement, Bool.not_eq_true'] at helement
      rw [helement]
      rfl
  | heading | paragraph | emphasis | strong | delete | link | blockquote | list | tableCell =>
      exact ⟨_, rfl, hall _⟩

mutual

theorem mirrors_one (n : Doc.Node) (parent : Node) :
    Mirrors parent n.elementNodes (one options n) := by
  obtain ⟨kind, properties, value, children⟩ := n
  cases outcome_one options ⟨kind, properties, value, children⟩ with
  | group hkind hone =>
      obtain rfl : kind = .root := hkind
      rw [hone]
      exact (mirrors_all children parent).spaced (spaced_lines _)
  | text hkind hone =>
      rw [hone]
      rcases hkind with hkind | ⟨⟨name, hkind⟩, hleaf⟩
      · obtain rfl : kind = .text := hkind
        exact .text _
      · obtain rfl : kind = .other name := hkind
        rw [Doc.Node.elementNodes]
        rw [hleaf]
        exact .text _
  | raw hkind hone =>
      obtain rfl : kind = .html := hkind
      rcases hone with hone | hone
      · rw [hone]
        exact .nil
      · rw [hone]
        exact .raw _
  | element helement e hone _ hsame hcontent =>
      obtain ⟨below, helements, hbelow⟩ := mirrors_content options _ hone helement
        (mirrors_all children) (fun table => mirrors_sections children)
        (mirrors_cells false children)
      rw [helements]
      exact (Mirrors.element hsame (hbelow.spaced hcontent)).spaced hone

theorem mirrors_all (ns : List Doc.Node) (parent : Node) :
    Mirrors parent (Doc.Node.elementNodesAll ns) (all options ns) := by
  cases ns with
  | nil => exact .nil
  | cons n rest => exact (mirrors_one n parent).append (mirrors_all rest parent)

theorem mirrors_sections (ns : List Doc.Node) {table : Element} (htag : table.tag = "table") :
    Mirrors (.element table) (Doc.Node.rowNodes ns) (sections options ns) := by
  cases ns with
  | nil => exact .nil
  | cons n rest =>
      obtain ⟨kind, properties, value, children⟩ := n
      have hcells (header : Bool) := mirrors_cells header children
      have hrest := mirrors_rows rest
      rw [Doc.Node.rowNodes_cons, ← List.cons_append, sections]
      split
      · exact mirrors_tableSections htag (fun _ => mirrors_row options true _ (hcells true)) hrest
      · have hrows (parent : Node) : Mirrors parent _
            ([row options false ⟨kind, properties, value, children⟩] ++ rows options rest) :=
          (mirrors_row options false _ (hcells false)).append (hrest parent)
        have hhead (parent : Node) : Mirrors parent [] (none : Option Node).toList := .nil
        have hsections := mirrors_tableSections htag hhead hrows
        exact hsections

theorem mirrors_rows (ns : List Doc.Node) (parent : Node) :
    Mirrors parent (Doc.Node.rowNodes ns) (rows options ns) := by
  cases ns with
  | nil => exact .nil
  | cons n rest =>
      obtain ⟨kind, properties, value, children⟩ := n
      have hrow : Mirrors parent _ [row options false ⟨kind, properties, value, children⟩] :=
        mirrors_row options false _ (mirrors_cells false children)
      rw [Doc.Node.rowNodes_cons, ← List.cons_append]
      exact hrow.append (mirrors_rows rest parent)

theorem mirrors_cells (header : Bool) (ns : List Doc.Node) (parent : Node) :
    Mirrors parent (Doc.Node.cellNodes ns) (cells options header ns) := by
  cases ns with
  | nil => exact .nil
  | cons n rest =>
      obtain ⟨kind, properties, value, children⟩ := n
      have hcell : Mirrors parent _ [cell options header ⟨kind, properties, value, children⟩] :=
        mirrors_cell options header _ (mirrors_all children)
      rw [Doc.Node.cellNodes_cons, ← List.cons_append]
      exact hcell.append (mirrors_cells header rest parent)

end

end Convert

/-- The kinds of the elements of a document's hypertext are those of the nodes that become
elements, once each and in document order. No root is below the outermost one, and an element
without a kind is where conversion adds it. -/
theorem kinds_of_ofDoc (options : ConvertOptions) (n : Doc.Node) :
    (ofDoc options n).nodes.filterMap elementKind? = n.elementNodes.map Doc.Node.kind ∧
      n.elementNodes.Sublist n.nodes ∧
      ∀ m ∈ (ofDoc options n).nodes, ∀ c ∈ m.children, c.MayStandIn m := by
  have hmirrors := Convert.mirrors_one options n (ofDoc options n)
  refine ⟨hmirrors.kinds, ?_, ?_⟩
  · rw [Doc.Node.nodes_eq_preorder]
    exact n.elementNodes_sublist
  · rw [ofDoc, Node.nodes, List.forall_mem_cons]
    exact hmirrors.placed

example :
    (Doc.Node.parent .table [.parent .paragraph [.leaf .text "a"]]).elementNodes.map
      Doc.Node.kind = [.table, .paragraph, .text] := by decide

end Hypertext

end KeyedMarkup
