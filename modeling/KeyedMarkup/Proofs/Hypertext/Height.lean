import KeyedMarkup.Hypertext.Sanitize
import KeyedMarkup.Proofs.Hypertext.Conversion

/-!
# How deep hypertext gets

Conversion makes a tree deeper by one level for each table on the way down, since rows come to
stand in the head or the body of the table, and by at most two levels at the bottom, where the text
of a code block stands in an element of its own. Sanitizing never makes a tree deeper.
-/

namespace KeyedMarkup

namespace Doc.Node

mutual

/-- The largest number of tables on a way from a node down to a leaf. -/
def tableNesting : Node → Nat
  | ⟨kind, _, _, children⟩ => (if kind = .table then 1 else 0) + tableNestingAll children

def tableNestingAll : List Node → Nat
  | [] => 0
  | n :: rest => max n.tableNesting (tableNestingAll rest)

end

end Doc.Node

namespace Hypertext

namespace Node

mutual

def height : Node → Nat
  | .root children => heightAll children
  | .element ⟨_, _, children, _⟩ => heightAll children
  | .text _ | .raw _ => 0

def heightAll : List Node → Nat
  | [] => 0
  | n :: rest => max (n.height + 1) (heightAll rest)

end

/-- The number of levels below the root that a tree has or gets. -/
def depth : Node → Nat
  | .root children => (root children).height
  | n => n.height + 1

theorem heightAll_rootChildren (n : Node) : heightAll n.rootChildren = n.depth := by
  cases n with
  | root children => rfl
  | _ => exact Nat.max_zero _

theorem heightAll_append (ms ns : List Node) :
    heightAll (ms ++ ns) = max (heightAll ms) (heightAll ns) := by
  induction ms with
  | nil => exact (Nat.zero_max _).symm
  | cons m ms ih => rw [List.cons_append, heightAll, heightAll, ih, Nat.max_assoc]

theorem heightAll_cons (n : Node) (rest : List Node) :
    heightAll (n :: rest) = max (heightAll [n]) (heightAll rest) :=
  heightAll_append [n] rest

theorem heightAll_element (e : Element) :
    heightAll [.element e] = heightAll e.children + 1 := by
  obtain ⟨tag, properties, children, kind⟩ := e
  rw [heightAll, heightAll, Nat.max_zero]
  rfl

theorem heightAll_spaced {ms ns : List Node} (h : Spaced ms ns) :
    heightAll ms ≤ max 1 (heightAll ns) := by
  induction h with
  | nil => exact Nat.zero_le _
  | keep n _ ih =>
      rw [heightAll, heightAll]
      omega
  | newline _ ih =>
      rw [heightAll, height]
      omega

end Node

namespace Convert

open Node

theorem heightAll_looseLines_le (ns : List Node) :
    heightAll (looseLines ns) ≤ max 1 (heightAll ns) :=
  heightAll_spaced (spaced_looseLines ns)

theorem heightAll_codeBlock_le (n : Doc.Node) : heightAll (codeBlock n).children ≤ 2 := by
  obtain ⟨properties, hchildren⟩ := children_codeBlock n
  rw [hchildren, heightAll_element]
  dsimp only
  split <;> simp [heightAll, height]

theorem heightAll_checkbox_le (n : Doc.Node) : heightAll (checkbox n) ≤ 1 := by
  rcases checkbox_eq n with hnone | ⟨properties, hbox⟩
  · simp [hnone, heightAll]
  · simp [hbox, heightAll, height]

theorem heightAll_tableSections_le (head : Option Node) (body : List Node) :
    heightAll (tableSections head body) ≤ max 1 (heightAll (head.toList ++ body)) + 1 := by
  rw [tableSections_eq, heightAll_append, heightAll_append]
  have hhead : heightAll
      (head.map fun row => .element ⟨"thead", .empty, looseLines [row], none⟩).toList ≤
        max 1 (heightAll head.toList) + 1 := by
    cases head with
    | none => exact Nat.zero_le _
    | some row =>
        have hrow := heightAll_looseLines_le [row]
        simp only [Option.map_some, Option.toList_some, heightAll_element]
        omega
  have hbody : heightAll
      (if body.isEmpty then [] else [.element ⟨"tbody", .empty, looseLines body, none⟩]) ≤
        max 1 (heightAll body) + 1 := by
    have hrows := heightAll_looseLines_le body
    split
    · exact Nat.zero_le _
    · rw [heightAll_element]
      dsimp only
      omega
  omega

variable (options : ConvertOptions)

theorem heightAll_sections_le (ns : List Doc.Node) :
    heightAll (sections options ns) ≤
      max 1 (heightAll (rowsFrom options (ns.head?.any isHeader) ns)) + 1 := by
  obtain ⟨head, body, hsections, hrows⟩ := exists_sections_eq options ns
  rw [hsections, ← hrows]
  exact heightAll_tableSections_le head body

theorem heightAll_row_le (header : Bool) (n : Doc.Node) :
    heightAll [row options header n] ≤ max 1 (heightAll (cells options header n.children)) + 1 := by
  rw [row_eq, rowElement, heightAll_element]
  exact Nat.succ_le_succ (heightAll_looseLines_le _)

theorem heightAll_cell (header : Bool) (n : Doc.Node) :
    heightAll [cell options header n] = heightAll (all options n.children) + 1 := by
  rw [cell_eq, cellElement, heightAll_element]
  rfl

/-- Only a table has content one level deeper than what its children become. -/
theorem heightAll_content_le (n : Doc.Node) {bound : Nat} (htwo : 2 ≤ bound)
    (hall : heightAll (all options n.children) ≤ bound)
    (hrows : ∀ header, heightAll (rowsFrom options header n.children) ≤ bound)
    (hcells : heightAll (cells options false n.children) ≤ bound) :
    heightAll (content options n) ≤ (if n.kind = .table then 1 else 0) + bound := by
  unfold content
  split
  case h_1 | h_2 | h_3 => exact Nat.zero_le _
  case h_4 =>
      rw [heightAll, heightAll, height]
      omega
  case h_5 =>
      have hcode := heightAll_codeBlock_le n
      omega
  case h_6 =>
      have hbox := heightAll_checkbox_le n
      rw [heightAll_append]
      omega
  case h_7 hkind =>
      have hsections := heightAll_sections_le options n.children
      have hbound := hrows (n.children.head?.any isHeader)
      rw [if_pos hkind]
      omega
  all_goals omega

theorem heightAll_one_le_of_children (n : Doc.Node) {bound : Nat} (htwo : 2 ≤ bound)
    (hall : heightAll (all options n.children) ≤ bound)
    (hrows : ∀ header, heightAll (rowsFrom options header n.children) ≤ bound)
    (hcells : heightAll (cells options false n.children) ≤ bound) :
    heightAll (one options n) ≤ (if n.kind = .table then 1 else 0) + bound + 1 := by
  have hcontent := heightAll_content_le options n htwo hall hrows hcells
  cases outcome_one options n with
  | group _ hone =>
      have hlines := heightAll_spaced (spaced_lines (all options n.children))
      rw [hone]
      omega
  | text _ hone =>
      rw [hone, heightAll, heightAll, height]
      omega
  | raw _ hone =>
      rcases hone with hone | hone
      · rw [hone]
        exact Nat.zero_le _
      · rw [hone, heightAll, heightAll, height]
        omega
  | element _ e hone _ _ hspaced =>
      have houter := heightAll_spaced hone
      have hinner := heightAll_spaced hspaced
      rw [heightAll_element] at houter
      omega

mutual

/-- How much deeper the hypertext of a node can be than the node. -/
theorem heightAll_one_le (n : Doc.Node) :
    heightAll (one options n) ≤ n.height + n.tableNesting + 3 := by
  obtain ⟨kind, properties, value, children⟩ := n
  have hone := heightAll_one_le_of_children options ⟨kind, properties, value, children⟩
    (Nat.le_add_left 2 _) (heightAll_all_le children)
    (fun header => heightAll_rowsFrom_le header children) (heightAll_cells_le false children)
  rw [Doc.Node.height, Doc.Node.tableNesting]
  dsimp only at hone
  omega

theorem heightAll_all_le (ns : List Doc.Node) :
    heightAll (all options ns) ≤ Doc.Node.heightAll ns + Doc.Node.tableNestingAll ns + 2 := by
  cases ns with
  | nil => exact Nat.zero_le _
  | cons n rest =>
      have hnode := heightAll_one_le n
      have hrest := heightAll_all_le rest
      rw [all, heightAll_append, Doc.Node.heightAll, Doc.Node.tableNestingAll]
      omega

theorem heightAll_rowsFrom_le (header : Bool) (ns : List Doc.Node) :
    heightAll (rowsFrom options header ns) ≤
      Doc.Node.heightAll ns + Doc.Node.tableNestingAll ns + 2 := by
  cases ns with
  | nil => exact Nat.zero_le _
  | cons n rest =>
      obtain ⟨kind, properties, value, children⟩ := n
      have hcells := heightAll_cells_le header children
      have hrow := heightAll_row_le options header ⟨kind, properties, value, children⟩
      have hrest := heightAll_rowsFrom_le false rest
      rw [rowsFrom, rows_eq, heightAll_cons, Doc.Node.heightAll, Doc.Node.tableNestingAll,
        Doc.Node.height, Doc.Node.tableNesting]
      dsimp only at hrow
      omega

theorem heightAll_cells_le (header : Bool) (ns : List Doc.Node) :
    heightAll (cells options header ns) ≤
      Doc.Node.heightAll ns + Doc.Node.tableNestingAll ns + 2 := by
  cases ns with
  | nil => exact Nat.zero_le _
  | cons n rest =>
      obtain ⟨kind, properties, value, children⟩ := n
      have hchildren := heightAll_all_le children
      have hcell := heightAll_cell options header ⟨kind, properties, value, children⟩
      have hrest := heightAll_cells_le header rest
      rw [cells, heightAll_cons, Doc.Node.heightAll, Doc.Node.tableNestingAll,
        Doc.Node.height, Doc.Node.tableNesting]
      dsimp only at hcell
      omega

end

end Convert

namespace Node

variable (s : Schema)

mutual

theorem heightAll_clean_le (n : Node) : heightAll (clean s n) ≤ n.height + 1 := by
  cases n with
  | root children => exact Nat.le_succ_of_le (heightAll_cleanAll_le children)
  | text value => exact Nat.le_refl _
  | raw value => exact Nat.zero_le _
  | element e =>
      obtain ⟨tag, properties, children, kind⟩ := e
      have hchildren := heightAll_cleanAll_le children
      rw [clean, height]
      split
      · exact Nat.zero_le _
      · split
        · rw [heightAll_element]
          exact Nat.succ_le_succ hchildren
        -- The content moves up.
        · exact Nat.le_succ_of_le hchildren

theorem heightAll_cleanAll_le (ns : List Node) : heightAll (cleanAll s ns) ≤ heightAll ns := by
  cases ns with
  | nil => exact Nat.zero_le _
  | cons n rest =>
      have hnode := heightAll_clean_le n
      have hrest := heightAll_cleanAll_le rest
      rw [cleanAll, heightAll_append, heightAll]
      omega

end

theorem height_sanitize_le (n : Node) :
    (n.sanitize s).height ≤ heightAll n.rootChildren := by
  rw [sanitize, height]
  cases n with
  | root children => exact heightAll_cleanAll_le s children
  | text value => exact heightAll_clean_le s (.text value)
  | raw value => exact Nat.zero_le _
  | element e =>
      have helement := heightAll_clean_le s (.element e)
      exact Nat.le_trans helement (Nat.le_max_left _ _)

end Node

end Hypertext

end KeyedMarkup
