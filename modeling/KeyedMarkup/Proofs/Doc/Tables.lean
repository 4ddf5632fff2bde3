import KeyedMarkup.Proofs.Doc.Description

/-!
# Tables that a builder makes

A builder does not count columns: a cell stands in the column that is as far along as the open row
has cells, and the alignments are those of the table that was opened last. Where tables hold a head
and rows, these hold cells, and no table is in a cell, that is always the column of the cell in its
own table. What stands in the cells matters to neither, and the tables of the tree are those that
start in no image, in their order.
-/

namespace KeyedMarkup.Doc

/-! ## Events of tables -/

def Event.columns? : Event → Option (List (Option Align))
  | .start (.table columns) => some columns
  | _ => none

def columnsOf (events : List Event) : List (List (Option Align)) := events.filterMap Event.columns?

def Tableless (events : List Event) : Prop := ∀ e ∈ events, e.columns? = none

def cellEvents (body : List Event) : List Event := .start .tableCell :: body ++ [.stop]

def rowTag (header : Bool) : Tag := if header then .tableHead else .tableRow

def rowEvents (header : Bool) (bodies : List (List Event)) : List Event :=
  .start (rowTag header) :: (bodies.map cellEvents).flatten ++ [.stop]

/-- What a table holds: a head and then other rows. -/
def gridEvents (head : List (List Event)) (rows : List (List (List Event))) : List Event :=
  rowEvents true head ++ (rows.map (rowEvents false)).flatten

/-- Leaves and pairs, one after the other, where the pair of a table holds one head and then rows,
these hold cells, and no table is in a cell. -/
inductive Tabular : List Event → Prop where
  | nil : Tabular []
  | leaf {e : Event} {rest : List Event} (he : e.isLeaf = true) (hrest : Tabular rest) :
      Tabular (e :: rest)
  | pair {tag : Tag} {body rest : List Event} (htag : tag.kind ≠ .table) (hbody : Tabular body)
      (hrest : Tabular rest) : Tabular (.start tag :: body ++ .stop :: rest)
  | table (columns : List (Option Align)) {head : List (List Event)}
      {rows : List (List (List Event))} {rest : List Event}
      (hcells : ∀ body ∈ head ++ rows.flatten, Tabular body)
      (htableless : ∀ body ∈ head ++ rows.flatten, Tableless body) (hrest : Tabular rest) :
      Tabular (.start (.table columns) :: gridEvents head rows ++ .stop :: rest)

theorem Event.columns?_start {tag : Tag} (h : tag.kind ≠ .table) :
    (Event.start tag).columns? = none := by
  cases tag with
  | table columns => exact absurd rfl h
  | _ => rfl

theorem columnsOf_append (events events' : List Event) :
    columnsOf (events ++ events') = columnsOf events ++ columnsOf events' :=
  List.filterMap_append

theorem Tableless.columnsOf {events : List Event} (h : Tableless events) : columnsOf events = [] :=
  List.filterMap_eq_nil_iff.mpr h

theorem columnsOf_pair {tag : Tag} (htag : tag.kind ≠ .table) (body : List Event) :
    columnsOf (.start tag :: body ++ [.stop]) = columnsOf body := by
  rw [columnsOf_append, columnsOf, List.filterMap_cons_none (Event.columns?_start htag)]
  exact List.append_nil _

theorem Tableless.outsideImages {events : List Event} (h : Tableless events) (depth : Nat) :
    Tableless (outsideImages depth events) :=
  fun e he => h e ((outsideImages_sublist depth events).subset he)

theorem Tableless.append {events events' : List Event} (h : Tableless events)
    (h' : Tableless events') : Tableless (events ++ events') :=
  List.forall_mem_append.mpr ⟨h, h'⟩

theorem Tableless.pair {tag : Tag} (htag : tag.kind ≠ .table) {body : List Event}
    (h : Tableless body) : Tableless (.start tag :: body ++ [.stop]) := by
  rw [List.cons_append]
  exact List.forall_mem_cons.mpr
    ⟨Event.columns?_start htag, h.append (List.forall_mem_singleton.mpr rfl)⟩

theorem Nested.append {events events' : List Event} (h : Nested events) (h' : Nested events') :
    Nested (events ++ events') := by
  induction h with
  | nil => exact h'
  | leaf he _ ih => exact .leaf he ih
  | pair tag hbody _ _ ih =>
      rw [List.append_assoc]
      exact .pair tag hbody ih

theorem Nested.tabular {events : List Event} (h : Nested events) (ht : Tableless events) :
    Tabular events := by
  induction h with
  | nil => exact .nil
  | leaf he _ ih => exact .leaf he (ih (List.forall_mem_cons.mp ht).2)
  | pair tag _ _ ihbody ihrest =>
      obtain ⟨hstart, hin⟩ := List.forall_mem_cons.mp ht
      obtain ⟨hbody, hstop⟩ := List.forall_mem_append.mp hin
      refine .pair ?_ (ihbody hbody) (ihrest (List.forall_mem_cons.mp hstop).2)
      intro htag
      cases tag with
      | table columns => cases hstart
      | _ => cases htag

theorem kind_rowTag_ne_table (header : Bool) : (rowTag header).kind ≠ .table := by
  cases header <;> decide

/-- What is so of the events in all cells, and stays so in a pair and one after the other, is so of
what the table holds. -/
theorem gridEvents_induction {motive : List Event → Prop} (hnil : motive [])
    (happend : ∀ {es es'}, motive es → motive es' → motive (es ++ es'))
    (hpair : ∀ {tag body}, tag.kind ≠ .table → motive body →
      motive (.start tag :: body ++ [.stop]))
    {head : List (List Event)} {rows : List (List (List Event))}
    (h : ∀ body ∈ head ++ rows.flatten, motive body) : motive (gridEvents head rows) := by
  have hflatten (ess : List (List Event)) (hess : ∀ es ∈ ess, motive es) :
      motive ess.flatten := by
    induction ess with
    | nil => exact hnil
    | cons es ess ih =>
        rw [List.forall_mem_cons] at hess
        exact happend hess.1 (ih hess.2)
  have hrow (header : Bool) (bodies : List (List Event)) (hbodies : ∀ body ∈ bodies, motive body) :
      motive (rowEvents header bodies) := by
    refine hpair (kind_rowTag_ne_table header) (hflatten _ ?_)
    rw [List.forall_mem_map]
    exact fun body hbody => hpair (by decide) (hbodies body hbody)
  obtain ⟨hhead, hrows⟩ := List.forall_mem_append.mp h
  refine happend (hrow true head hhead) (hflatten _ ?_)
  rw [List.forall_mem_map]
  exact fun bodies hbodies => hrow false bodies fun body hbody =>
    hrows body (List.mem_flatten.mpr ⟨_, hbodies, hbody⟩)

theorem nested_grid {head : List (List Event)} {rows : List (List (List Event))}
    (h : ∀ body ∈ head ++ rows.flatten, Nested body) : Nested (gridEvents head rows) :=
  gridEvents_induction .nil .append (fun _ hbody => .pair _ hbody .nil) h

theorem tableless_grid {head : List (List Event)} {rows : List (List (List Event))}
    (h : ∀ body ∈ head ++ rows.flatten, Tableless body) : Tableless (gridEvents head rows) :=
  gridEvents_induction nofun .append (fun htag hbody => hbody.pair htag) h

theorem Tabular.nested {events : List Event} (h : Tabular events) : Nested events := by
  induction h with
  | nil => exact .nil
  | leaf he _ ih => exact .leaf he ih
  | @pair tag _ _ _ _ _ ihbody ihrest => exact .pair tag ihbody ihrest
  | table columns _ _ _ ihcells ihrest => exact .pair (.table columns) (nested_grid ihcells) ihrest

/-! ## Tables of a tree -/

def alignProperties : Option Align → Properties
  | some align => .ofList [("align", .text align.name)]
  | none => .empty

namespace Node

def tables (n : Node) : List Node := n.nodes.filter (·.kind = .table)

/-- Whether a node is a cell that is aligned as the column at a place asks for, if there is one. -/
structure IsCell (columns : List (Option Align)) (place : Nat) (cell : Node) : Prop where
  kind : cell.kind = .tableCell
  properties : cell.properties = alignProperties (columns[place]?).join

/-- Whether a node is a row of such cells, and a header or not. -/
structure IsRow (columns : List (Option Align)) (header : Bool) (row : Node) : Prop where
  kind : row.kind = .tableRow
  properties : row.properties = if header then .ofList [("header", .flag true)] else .empty
  cells : ∀ (place : Nat) (cell : Node), row.children[place]? = some cell →
    cell.IsCell columns place

/-- Whether a node is a table of such rows, of which the first and no other one is a header. -/
structure IsGrid (columns : List (Option Align)) (table : Node) : Prop where
  kind : table.kind = .table
  properties : table.properties = .empty
  rows : ∃ head body, table.children = head :: body ∧ head.IsRow columns true ∧
    ∀ row ∈ body, row.IsRow columns false

theorem tables_eq (n : Node) :
    n.tables = (if n.kind = .table then [n] else []) ++ n.children.flatMap tables := by
  have hall (ns : List Node) :
      (preorderAll ns).filter (·.kind = .table) = ns.flatMap tables := by
    induction ns with
    | nil => rfl
    | cons n rest ih =>
        rw [preorderAll, List.filter_append, ih, List.flatMap_cons, tables, nodes_eq_preorder]
  obtain ⟨kind, properties, value, children⟩ := n
  rw [tables, nodes_eq_preorder, preorder, List.filter_cons, hall]
  split <;> simp_all

theorem tables_of_childless {n : Node} (h : n.children = []) (hkind : (n.kind == .table) = false) :
    n.tables = [] := by
  rw [tables_eq, h, if_neg (beq_eq_false_iff_ne.mp hkind)]
  rfl

end Node

/-! ## Open nodes -/

namespace OpenNode

def tables (o : OpenNode) : List Node := o.latest.reverse.flatMap Node.tables

theorem tables_add (o : OpenNode) (n : Node) : (o.add n).tables = o.tables ++ n.tables := by
  rw [tables, add, List.reverse_cons, List.flatMap_append, List.flatMap_singleton]
  rfl

theorem close_of_isPlain {o : OpenNode} (h : o.kind.isPlain = true) : o.close = o.node := by
  obtain ⟨kind, properties, value, latest⟩ := o
  cases kind with
  | code | html | image => cases h
  | _ => rfl

theorem tables_close (o : OpenNode) : o.close.tables =
    if o.kind = .image then [] else (if o.kind = .table then [o.close] else []) ++ o.tables := by
  rw [Node.tables_eq, kind_close]
  by_cases himage : o.kind = .image
  · have hchildren : o.close.children = [] := by
      unfold close
      rw [himage]
      rfl
    rw [hchildren, himage, if_pos rfl]
    rfl
  · have hchildren : o.close.children = o.latest.reverse := by
      unfold close
      split
      · rfl
      · rfl
      · contradiction
      · rfl
    rw [hchildren, if_neg himage]
    rfl

theorem exists_addText_eq (o : OpenNode) (s : String) :
    ∃ value latest, o.addText s = { o with value, latest } ∧
      latest.reverse.flatMap Node.tables = o.tables := by
  unfold addText
  split
  next => exact ⟨_, o.latest, rfl, rfl⟩
  next =>
    split
    next ps v cs rest hlatest =>
      refine ⟨o.value, _, rfl, ?_⟩
      rw [tables, hlatest, List.reverse_cons, List.reverse_cons, List.flatMap_append,
        List.flatMap_append, List.flatMap_singleton, List.flatMap_singleton, Node.tables_eq,
        Node.tables_eq ⟨.text, ps, some v, cs⟩]
      rfl
    next =>
      refine ⟨o.value, _, rfl, ?_⟩
      have hadd := tables_add o (.leaf .text s)
      rwa [Node.tables_of_childless rfl rfl, List.append_nil] at hadd

theorem exists_addHtml_eq (o : OpenNode) (s : String) :
    ∃ value latest, o.addHtml s = { o with value, latest } ∧
      latest.reverse.flatMap Node.tables = o.tables := by
  unfold addHtml
  split
  next => exact ⟨_, o.latest, rfl, rfl⟩
  next =>
    refine ⟨o.value, _, rfl, ?_⟩
    have hadd := tables_add o (.leaf .html s)
    rwa [Node.tables_of_childless rfl rfl, List.append_nil] at hadd

/-- Whether an open node is as it was, or is a list item and is so but for its properties. -/
structure Keeps (before after : OpenNode) : Prop where
  frame : ∃ properties, after = { before with properties }
  same : before.kind ≠ .listItem → after = before

namespace Keeps

theorem refl (o : OpenNode) : Keeps o o := ⟨⟨o.properties, rfl⟩, fun _ => rfl⟩

theorem of_markedBy {marks : List Bool} {o o' : OpenNode} (h : MarkedBy marks o o') :
    Keeps o o' := by
  rcases h with rfl | ⟨hitem, checked, _, rfl⟩
  · exact refl _
  · exact ⟨⟨_, rfl⟩, fun hother => absurd hitem hother⟩

theorem kind {o o' : OpenNode} (h : Keeps o o') : o'.kind = o.kind := by
  obtain ⟨properties, rfl⟩ := h.frame
  rfl

theorem tables {o o' : OpenNode} (h : Keeps o o') : o'.tables = o.tables := by
  obtain ⟨properties, rfl⟩ := h.frame
  rfl

theorem trans {o o' o'' : OpenNode} (h : Keeps o o') (h' : Keeps o' o'') : Keeps o o'' where
  frame := by
    obtain ⟨properties, rfl⟩ := h.frame
    exact h'.frame
  same := by
    intro hother
    rw [h'.same (by rw [h.kind]; exact hother), h.same hother]

theorem forall₂_refl (os : List OpenNode) : List.Forall₂ Keeps os os :=
  List.forall₂_same.mpr fun o _ => refl o

theorem forall₂_trans {os os' os'' : List OpenNode} (h : List.Forall₂ Keeps os os')
    (h' : List.Forall₂ Keeps os' os'') : List.Forall₂ Keeps os os'' := by
  induction h generalizing os'' with
  | nil => exact h'
  | cons ho _ ih =>
      obtain ⟨o'', rest, ho', hrest, rfl⟩ := List.forall₂_cons_left_iff.mp h'
      exact .cons (ho.trans ho') (ih hrest)

end Keeps

end OpenNode

/-! ## Builders -/

namespace Builder

/-- Whether a builder has got some more tables in its innermost node, and is otherwise as it was,
as far as tables go and but for check marks of list items. -/
structure Fills (added : List Node) (before after : Builder) : Prop where
  kind : after.top.kind = before.top.kind
  properties : before.top.kind ≠ .listItem → after.top.properties = before.top.properties
  tables : after.top.tables = before.top.tables ++ added
  below : List.Forall₂ OpenNode.Keeps before.below after.below

namespace Fills

variable {b b' b'' : Builder} {added added' : List Node}

theorem refl (b : Builder) : Fills [] b b :=
  ⟨rfl, fun _ => rfl, (List.append_nil _).symm, OpenNode.Keeps.forall₂_refl _⟩

theorem trans (h : Fills added b b') (h' : Fills added' b' b'') :
    Fills (added ++ added') b b'' where
  kind := h'.kind.trans h.kind
  properties := by
    intro hother
    rw [h'.properties (by rw [h.kind]; exact hother), h.properties hother]
  tables := by rw [h'.tables, h.tables, List.append_assoc]
  below := OpenNode.Keeps.forall₂_trans h.below h'.below

theorem add (b : Builder) (n : Node) : Fills n.tables b (b.add n) :=
  ⟨rfl, fun _ => rfl, OpenNode.tables_add b.top n, OpenNode.Keeps.forall₂_refl _⟩

theorem addLeaf {n : Node} (hchildren : n.children = []) (hkind : (n.kind == .table) = false)
    (b : Builder) : Fills [] b (b.add n) := by
  have hadd := add b n
  rwa [Node.tables_of_childless hchildren hkind] at hadd

theorem withTop {top : OpenNode} (h : ∃ value latest, top = { b.top with value, latest } ∧
    latest.reverse.flatMap Node.tables = b.top.tables) : Fills [] b { b with top } := by
  obtain ⟨value, latest, rfl, htables⟩ := h
  refine ⟨rfl, fun _ => rfl, ?_, OpenNode.Keeps.forall₂_refl _⟩
  rw [List.append_nil]
  exact htables

theorem of_keeps (h : List.Forall₂ OpenNode.Keeps b.stack b'.stack) : Fills [] b b' := by
  obtain ⟨htop, hbelow⟩ := List.forall₂_cons.mp h
  refine ⟨htop.kind, fun hother => ?_, ?_, hbelow⟩
  · rw [htop.same hother]
  · rw [htop.tables, List.append_nil]

theorem leaf {e : Event} (he : e.isLeaf = true) (b : Builder) : Fills [] b (b.step e) := by
  cases e with
  | start tag => cases he
  | stop => cases he
  | text s => exact withTop (b.top.exists_addText_eq s)
  | softBreak => exact withTop (b.top.exists_addText_eq "\n")
  | html s => exact withTop (b.top.exists_addHtml_eq s)
  | inlineHtml s => exact withTop (b.top.exists_addHtml_eq s)
  | task checked =>
      apply of_keeps
      show List.Forall₂ OpenNode.Keeps b.stack (b.task checked).stack
      rw [stack_task]
      have hsame : List.Forall₂ (OpenNode.MarkedBy [checked]) b.stack b.stack :=
        List.forall₂_same.mpr fun _ _ => .inl rfl
      exact (markedBy_mark List.mem_cons_self hsame).imp fun _ _ => .of_markedBy
  | _ => exact addLeaf rfl rfl b

/-- What a stop does after a start and events that leave the node open that the start opened. -/
theorem exists_stop {tag : Tag} (h : Fills added (b.openTag tag) b') :
    ∃ outer below, b'.stop = ⟨outer.add b'.top.close, below,
        if tag.kind = .table then [] else b'.columns⟩ ∧
      OpenNode.Keeps b.top outer ∧ List.Forall₂ OpenNode.Keeps b.below below := by
  have hkind : b'.top.kind = tag.kind := h.kind
  obtain ⟨outer, below, houter, hbelow, heq⟩ := List.forall₂_cons_left_iff.mp h.below
  refine ⟨outer, below, ?_, houter, hbelow⟩
  rw [stop, heq, ← hkind]

theorem stop {tag : Tag} (h : Fills added (b.openTag tag) b') :
    Fills b'.top.close.tables b b'.stop := by
  obtain ⟨outer, below, hstop, houter, hbelow⟩ := h.exists_stop
  rw [hstop]
  refine ⟨houter.kind, fun hother => ?_, ?_, hbelow⟩
  · rw [houter.same hother]
    rfl
  · rw [OpenNode.tables_add, houter.tables]

theorem tables_close {tag : Tag} (h : Fills added (b.openTag tag) b') :
    b'.top.close.tables = if tag.kind = .image then [] else
      (if tag.kind = .table then [b'.top.close] else []) ++ added := by
  have hkind : b'.top.kind = tag.kind := h.kind
  rw [OpenNode.tables_close, hkind, h.tables]
  rfl

end Fills

theorem kind_top_run {events : List Event} (h : Nested events) (b : Builder) :
    (b.run events).top.kind = b.top.kind := by
  obtain ⟨inner, hstack, hkinds⟩ :=
    frames_of_nested h b [b.top] b.below rfl (List.cons_ne_nil _ _)
  obtain ⟨o, rfl, ho⟩ := List.map_eq_singleton_iff.mp hkinds
  exact (congrArg OpenNode.kind (List.cons.inj hstack).1).trans ho

theorem columns_step_leaf {e : Event} (he : e.isLeaf = true) (b : Builder) :
    (b.step e).columns = b.columns := by
  cases e with
  | start tag => cases he
  | stop => cases he
  | task checked =>
      show (b.task checked).columns = b.columns
      unfold task
      split <;> rfl
  | _ => rfl

theorem columns_openTag {tag : Tag} (h : tag.kind ≠ .table) (b : Builder) :
    (b.openTag tag).columns = b.columns := by
  cases tag with
  | table columns => exact absurd rfl h
  | _ => rfl

theorem columns_stop {b : Builder} (h : b.top.kind ≠ .table) : b.stop.columns = b.columns := by
  unfold stop
  split
  next => rfl
  next => exact if_neg h

theorem columns_run {events : List Event} (h : Tabular events) (ht : Tableless events)
    (b : Builder) : (b.run events).columns = b.columns := by
  induction h generalizing b with
  | nil => rfl
  | leaf he _ ih =>
      rw [run_cons, ih (List.forall_mem_cons.mp ht).2, columns_step_leaf he]
  | @pair tag body rest htag hbody _ ihbody ihrest =>
      obtain ⟨hin, hout⟩ := List.forall_mem_append.mp (List.forall_mem_cons.mp ht).2
      have hkind : ((b.openTag tag).run body).top.kind ≠ .table := by
        rw [kind_top_run hbody.nested]
        exact htag
      rw [run_pair, ihrest (List.forall_mem_cons.mp hout).2, columns_stop hkind, ihbody hin,
        columns_openTag htag]
  | table columns _ _ _ _ _ => exact absurd (ht _ List.mem_cons_self) nofun

/-! ## Cells and rows -/

/-- Whether some events, in an open node of a kind, add one node to it, which is in a relation to
its place, has no tables, and leaves the alignments alone. -/
def AddsOne (kind : Kind) (columns : List (Option Align)) (P : Nat → Node → Prop)
    (events : List Event) : Prop :=
  ∀ b : Builder, b.top.kind = kind → b.columns = columns →
    ∃ n below, b.run events = ⟨b.top.add n, below, columns⟩ ∧ P b.top.latest.length n ∧
      n.tables = [] ∧ List.Forall₂ OpenNode.Keeps b.below below

/-- Whether a cell with some events, in an open row, is added in the column of its place. -/
def AddsCell (columns : List (Option Align)) (body : List Event) : Prop :=
  AddsOne .tableRow columns (fun place cell => cell.IsCell columns place) (cellEvents body)

theorem exists_run_flatten {kind : Kind} {columns : List (Option Align)}
    {P : Nat → Node → Prop} {ess : List (List Event)} (h : ∀ es ∈ ess, AddsOne kind columns P es)
    {b : Builder} (hkind : b.top.kind = kind) (hcolumns : b.columns = columns) :
    ∃ (ns : List Node) (below : List OpenNode), b.run ess.flatten =
        ⟨{ b.top with latest := ns.reverse ++ b.top.latest }, below, columns⟩ ∧
      (∀ i n, ns[i]? = some n → P (b.top.latest.length + i) n) ∧ (∀ n ∈ ns, n.tables = []) ∧
      List.Forall₂ OpenNode.Keeps b.below below := by
  induction ess generalizing b with
  | nil =>
      obtain ⟨top, below, _⟩ := b
      subst hcolumns
      exact ⟨[], below, rfl, by simp, by simp, OpenNode.Keeps.forall₂_refl below⟩
  | cons es ess ih =>
      rw [List.forall_mem_cons] at h
      obtain ⟨n, below, hrun, hn, htables, hbelow⟩ := h.1 b hkind hcolumns
      obtain ⟨ns, below', hrest, hns, htables', hbelow'⟩ :=
        ih h.2 (b := ⟨b.top.add n, below, columns⟩) hkind rfl
      refine ⟨n :: ns, below', ?_, ?_, List.forall_mem_cons.mpr ⟨htables, htables'⟩,
        OpenNode.Keeps.forall₂_trans hbelow hbelow'⟩
      · rw [List.flatten_cons, run_append, hrun, hrest, List.reverse_cons, List.append_assoc]
        rfl
      · intro i m hm
        cases i with
        | zero => exact Option.some.inj hm ▸ hn
        | succ i =>
            have hplace : b.top.latest.length + (i + 1) = (b.top.add n).latest.length + i := by
              show _ = b.top.latest.length + 1 + i
              omega
            rw [hplace]
            exact hns i m hm

theorem Fills.ofLatest {b : Builder} {ns : List Node} {below : List OpenNode}
    {columns : List (Option Align)} (hns : ∀ n ∈ ns, n.tables = [])
    (hbelow : List.Forall₂ OpenNode.Keeps b.below below) :
    Fills [] b ⟨{ b.top with latest := ns.reverse ++ b.top.latest }, below, columns⟩ := by
  refine ⟨rfl, fun _ => rfl, ?_, hbelow⟩
  rw [OpenNode.tables, List.reverse_append, List.reverse_reverse, List.flatMap_append,
    List.flatMap_eq_nil_iff.mpr hns]
  rfl

/-- A pair adds one node if what stands in it brings no table and leaves the alignments alone. -/
theorem addsOne_pair {kind : Kind} {columns : List (Option Align)} {P : Nat → Node → Prop}
    {tag : Tag} {body : List Event} (hkind : kind ≠ .listItem) (htag : tag.kind ≠ .table)
    (h : ∀ b : Builder, b.columns = columns →
      Fills [] (b.openTag tag) ((b.openTag tag).run body) ∧
        ((b.openTag tag).run body).columns = columns ∧
        P b.top.latest.length ((b.openTag tag).run body).top.close) :
    AddsOne kind columns P (.start tag :: body ++ [.stop]) := by
  intro b hb hcolumns
  obtain ⟨hfills, hsame, hnode⟩ := h b hcolumns
  obtain ⟨outer, below, hstop, houter, hbelow⟩ := hfills.exists_stop
  refine ⟨_, below, ?_, hnode, ?_, hbelow⟩
  · -- The node around is no list item, so no check mark has got to it.
    rw [houter.same (hb ▸ hkind), if_neg htag, hsame] at hstop
    rw [run_pair]
    exact hstop
  · rw [hfills.tables_close, if_neg htag]
    split <;> rfl

theorem cellProperties_eq (b : Builder) :
    b.cellProperties = alignProperties (b.columns[b.top.latest.length]?).join := by
  unfold cellProperties alignProperties
  split <;> simp_all

theorem addsCell {columns : List (Option Align)} {body : List Event} (h : Tabular body)
    (ht : Tableless body) (hfills : ∀ b, Fills [] b (b.run body)) : AddsCell columns body := by
  apply addsOne_pair (by decide) (by decide)
  intro b hcolumns
  have hcell := hfills (b.openTag .tableCell)
  have hkind : ((b.openTag .tableCell).run body).top.kind = .tableCell := hcell.kind
  refine ⟨hcell, ?_, ?_⟩
  · rw [columns_run h ht]
    exact hcolumns
  · rw [OpenNode.close_of_isPlain (by rw [hkind]; rfl)]
    refine ⟨hkind, ?_⟩
    have hproperties : ((b.openTag .tableCell).run body).top.properties = b.cellProperties :=
      hcell.properties (show Kind.tableCell ≠ .listItem by decide)
    rw [← hcolumns, ← cellProperties_eq]
    exact hproperties

theorem addsOne_row (header : Bool) {columns : List (Option Align)} {bodies : List (List Event)}
    (h : ∀ body ∈ bodies, AddsCell columns body) :
    AddsOne .table columns (fun _ row => row.IsRow columns header) (rowEvents header bodies) := by
  apply addsOne_pair (by decide) (kind_rowTag_ne_table header)
  intro b hcolumns
  have hopen : b.openTag (rowTag header) = ⟨⟨.tableRow,
      if header then .ofList [("header", .flag true)] else .empty, none, []⟩, b.stack, columns⟩ := by
    rw [← hcolumns]
    cases header <;> rfl
  have hcells : ∀ es ∈ bodies.map cellEvents, AddsOne .tableRow columns
      (fun place cell => cell.IsCell columns place) es := List.forall_mem_map.mpr h
  obtain ⟨ns, below, hrun, hns, htables, hbelow⟩ :=
    exists_run_flatten hcells (b := b.openTag (rowTag header)) (by rw [hopen]) (by rw [hopen])
  rw [hrun]
  refine ⟨.ofLatest htables hbelow, rfl, ?_⟩
  rw [hopen] at hns ⊢
  refine ⟨rfl, rfl, fun place cell hcell => ?_⟩
  have hchildren : ns[place]? = some cell := by
    rw [← hcell, OpenNode.close_of_isPlain rfl]
    simp [OpenNode.node]
  have hplace := hns place cell hchildren
  rwa [List.length_nil, Nat.zero_add] at hplace

theorem exists_fills_table {columns : List (Option Align)} {head : List (List Event)}
    {rows : List (List (List Event))}
    (h : ∀ body ∈ head ++ rows.flatten, AddsCell columns body) (b : Builder) :
    ∃ table : Node, table.IsGrid columns ∧
      Fills [table] b (b.run (.start (.table columns) :: gridEvents head rows ++ [.stop])) := by
  obtain ⟨hhead, hrows⟩ := List.forall_mem_append.mp h
  have hbody : ∀ es ∈ rows.map (rowEvents false), AddsOne .table columns
      (fun _ row => row.IsRow columns false) es := by
    rw [List.forall_mem_map]
    exact fun bodies hbodies => addsOne_row false fun body hbody =>
      hrows body (List.mem_flatten.mpr ⟨_, hbodies, hbody⟩)
  -- The head comes into a table that is empty, and the rows into one that holds the head.
  let opened : Builder := b.openTag (.table columns)
  obtain ⟨n, below, hrun, hn, htables, hbelow⟩ := addsOne_row true hhead opened rfl rfl
  obtain ⟨ns, below', hrun', hns, htables', hbelow'⟩ :=
    exists_run_flatten hbody (b := ⟨opened.top.add n, below, columns⟩) rfl rfl
  have hgrid : opened.run (gridEvents head rows) =
      ⟨{ opened.top with latest := ns.reverse ++ [n] }, below', columns⟩ := by
    rw [gridEvents, run_append, hrun, hrun']
    rfl
  have hfills : Fills [] opened (opened.run (gridEvents head rows)) := by
    have htableless : ∀ m ∈ [n], m.tables = [] := List.forall_mem_singleton.mpr htables
    have hfirst : Fills [] opened ⟨opened.top.add n, below, columns⟩ :=
      Fills.ofLatest htableless hbelow
    rw [hgrid]
    exact hfirst.trans (Fills.ofLatest htables' hbelow')
  have hstop := hfills.stop
  rw [hfills.tables_close] at hstop
  refine ⟨_, ?_, by rw [run_pair]; exact hstop⟩
  rw [hgrid, OpenNode.close_of_isPlain rfl]
  refine ⟨rfl, rfl, n, ns, ?_, hn, ?_⟩
  · simp [OpenNode.node]
  · intro row hrow
    obtain ⟨i, hi⟩ := List.mem_iff_getElem?.mp hrow
    exact hns i row hi

/-- Balanced events bring the tables that start in no image among them, each with its cells in the
columns of its own alignments. -/
theorem exists_fills {events : List Event} (h : Tabular events) (b : Builder) :
    ∃ added, Fills added b (b.run events) ∧
      List.Forall₂ Node.IsGrid (columnsOf (outsideImages 0 events)) added := by
  induction h generalizing b with
  | nil => exact ⟨[], .refl b, .nil⟩
  | @leaf e rest he _ ih =>
      obtain ⟨added, hfills, hgrids⟩ := ih (b.step e)
      refine ⟨added, (Fills.leaf he b).trans hfills, ?_⟩
      rw [outsideImages_leaf he, ← List.singleton_append, columnsOf_append]
      cases e with
      | start tag => cases he
      | _ => exact hgrids
  | @pair tag body rest htag hbody _ ihbody ihrest =>
      obtain ⟨added, hfills, hgrids⟩ := ihbody (b.openTag tag)
      obtain ⟨added', hfills', hgrids'⟩ := ihrest ((b.openTag tag).run body).stop
      have hstop := hfills.stop
      rw [hfills.tables_close, if_neg htag, List.nil_append] at hstop
      refine ⟨(if tag.kind = .image then [] else added) ++ added', ?_, ?_⟩
      · rw [run_pair]
        exact hstop.trans hfills'
      · rw [outsideImages_pair tag hbody.nested, columnsOf_append]
        refine List.rel_append ?_ hgrids'
        split
        · exact .nil
        · rw [columnsOf_pair htag]
          exact hgrids
  | @table columns head rows rest hcells htableless _ ihcells ihrest =>
      have hadds : ∀ body ∈ head ++ rows.flatten, AddsCell columns body := by
        intro body hbody
        -- No table starts in a cell, so all that the induction says of it is that none is added.
        have ht := htableless body hbody
        apply addsCell (hcells body hbody) ht
        intro b
        obtain ⟨added, hfills, hgrids⟩ := ihcells body hbody b
        rw [(ht.outsideImages 0).columnsOf, List.forall₂_nil_left_iff] at hgrids
        rwa [hgrids] at hfills
      obtain ⟨table, htable, hfills⟩ := exists_fills_table hadds b
      obtain ⟨added, hfills', hgrids⟩ :=
        ihrest (b.run (.start (.table columns) :: gridEvents head rows ++ [.stop]))
      refine ⟨table :: added, ?_, ?_⟩
      · rw [List.append_cons, run_append]
        exact hfills.trans hfills'
      · have hnested := nested_grid fun body hbody => (hcells body hbody).nested
        have hbare := ((tableless_grid htableless).outsideImages 0).columnsOf
        rw [outsideImages_pair (.table columns) hnested, columnsOf_append, if_neg nofun,
          List.cons_append, ← List.singleton_append, columnsOf_append, columnsOf_append, hbare]
        exact .cons htable hgrids

end Builder

/-- The tables of a tree are those that start in no image, in their order, and each has its cells
in the columns of its own alignments. -/
theorem Node.isGrid_tables_ofEvents {events : List Event} (h : Tabular events) :
    List.Forall₂ IsGrid (columnsOf (outsideImages 0 events)) (ofEvents events).tables := by
  obtain ⟨added, hfills, hgrids⟩ := Builder.exists_fills h .start
  have hbelow : (Builder.start.run events).below = [] :=
    List.forall₂_nil_left_iff.mp hfills.below
  have hkind : (Builder.start.run events).top.kind = .root := hfills.kind
  have htables : (ofEvents events).tables = added := by
    rw [ofEvents, Builder.finish, hbelow, Builder.closeAll, tables_eq]
    show (if (Builder.start.run events).top.kind = .table then _ else []) ++ _ = _
    rw [hkind, if_neg (by decide), List.nil_append]
    exact hfills.tables
  rwa [htables]

end KeyedMarkup.Doc
