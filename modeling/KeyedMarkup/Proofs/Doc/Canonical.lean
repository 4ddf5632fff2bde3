import KeyedMarkup.Doc.Json
import KeyedMarkup.Proofs.Doc.Traversal

/-!
# What decoding keeps of a document

A written document has the names of its kinds, so a kind that is called like a recognized one
becomes that one when it is read again. All the rest of a document can be read as it was written
if its numbers can, and if its JSON value nests no deeper than the reader goes.
-/

namespace KeyedMarkup

namespace Doc

namespace Kind

/-- The kind that is read from the name of a kind. -/
def canonical : Kind → Kind
  | .other name => .ofName name
  | kind => kind

theorem ofName_name (kind : Kind) : ofName kind.name = kind.canonical := by
  cases kind with
  | other name => rfl
  | _ => decide

theorem canonical_ofName (name : String) : (ofName name).canonical = ofName name := by
  unfold ofName
  cases hfind : recognizedKinds.find? (·.name == name) with
  | none =>
      rw [Option.getD_none, canonical, ofName, hfind]
      rfl
  | some kind =>
      have hmem : kind ∈ recognizedKinds := List.mem_of_find?_eq_some hfind
      have hall : ∀ k ∈ recognizedKinds, k.canonical = k := by decide
      exact hall kind hmem

theorem canonical_of_recognized {kind : Kind} (h : kind.recognized = true) :
    kind.canonical = kind := by
  cases kind with
  | other name => cases h
  | _ => rfl

/-- No kind that is canonical is called like a recognized one without being that one. -/
theorem name_ne_of_canonical {name : String} (h : (other name).canonical = other name)
    {kind : Kind} (hkind : kind.recognized = true) : kind.name ≠ name := by
  rintro rfl
  have hother : kind = other kind.name :=
    calc
      kind = kind.canonical := (canonical_of_recognized hkind).symm
      _ = ofName kind.name := (ofName_name kind).symm
      _ = other kind.name := h
  rw [hother] at hkind
  cases hkind

end Kind

namespace Node

mutual

/-- The document with all kinds as they are read from their names. -/
def canonical : Node → Node
  | ⟨kind, properties, value, children⟩ =>
      ⟨kind.canonical, properties, value, canonicalAll children⟩

def canonicalAll : List Node → List Node
  | [] => []
  | n :: rest => n.canonical :: canonicalAll rest

end

end Node

end Doc

def Dict.numbers (ps : Properties) : List Binary64 := ps.entries.filterMap (·.2.number?)

namespace Doc.Node

def numbers (n : Node) : List Binary64 := n.nodes.flatMap (·.properties.numbers)

theorem mem_numbers {x : Binary64} {n : Node} :
    x ∈ n.numbers ↔ x ∈ n.properties.numbers ∨ ∃ c ∈ n.children, x ∈ c.numbers := by
  simp only [numbers, List.mem_flatMap]
  constructor
  · rintro ⟨m, hm, hx⟩
    rcases mem_nodes.mp hm with rfl | ⟨c, hc, hm⟩
    · exact .inl hx
    · exact .inr ⟨c, hc, m, hm, hx⟩
  · rintro (hx | ⟨c, hc, m, hm, hx⟩)
    · exact ⟨n, mem_nodes.mpr (.inl rfl), hx⟩
    · exact ⟨m, mem_nodes.mpr (.inr ⟨c, hc, hm⟩), hx⟩

end Doc.Node

namespace Json.Value

mutual

/-- How deep arrays and objects are nested in a value. -/
def nesting : Value → Nat
  | .array items => nestingItems items + 1
  | .object fields => nestingFields fields + 1
  | .null | .flag _ | .number _ | .text _ | .unusable => 0

def nestingItems : List Value → Nat
  | [] => 0
  | v :: rest => max v.nesting (nestingItems rest)

def nestingFields : List (String × Value) → Nat
  | [] => 0
  | (_, v) :: rest => max v.nesting (nestingFields rest)

end

theorem nestingItems_le_iff {items : List Value} {room : Nat} :
    nestingItems items ≤ room ↔ ∀ v ∈ items, v.nesting ≤ room := by
  induction items with
  | nil => simp [nestingItems]
  | cons v rest ih => rw [nestingItems, Nat.max_le, ih, List.forall_mem_cons]

theorem nestingFields_le_iff {fields : List (String × Value)} {room : Nat} :
    nestingFields fields ≤ room ↔ ∀ f ∈ fields, f.2.nesting ≤ room := by
  induction fields with
  | nil => simp [nestingFields]
  | cons f rest ih => rw [nestingFields, Nat.max_le, ih, List.forall_mem_cons]

theorem nesting_array_le_iff {items : List Value} {room : Nat} :
    (array items).nesting ≤ room + 1 ↔ ∀ v ∈ items, v.nesting ≤ room := by
  rw [nesting, Nat.add_le_add_iff_right, nestingItems_le_iff]

theorem nesting_object_le_iff {fields : List (String × Value)} {room : Nat} :
    (object fields).nesting ≤ room + 1 ↔ ∀ f ∈ fields, f.2.nesting ≤ room := by
  rw [nesting, Nat.add_le_add_iff_right, nestingFields_le_iff]

end Json.Value

theorem Dict.nesting_json_le_iff {ps : Properties} {room : Nat} :
    (Dict.json ps).nesting ≤ room + 1 ↔ ∀ e ∈ ps.entries, e.2.json.nesting ≤ room := by
  rw [Dict.json, Json.Value.nesting_object_le_iff, List.forall_mem_map]

namespace Doc.Node

theorem mem_jsonAll {v : Json.Value} {ns : List Node} :
    v ∈ jsonAll ns ↔ ∃ n ∈ ns, n.json = v := by
  induction ns with
  | nil => simp [jsonAll]
  | cons n rest ih => simp [jsonAll, ih, eq_comm]

/-- The value of a node fits if those of its properties and children fit that are written. -/
theorem nesting_json_le_iff {n : Node} {room : Nat} :
    n.json.nesting ≤ room + 1 ↔
      (n.properties.isEmpty = false → (Dict.json n.properties).nesting ≤ room) ∧
        (n.children ≠ [] → (Json.Value.array (jsonAll n.children)).nesting ≤ room) := by
  obtain ⟨kind, properties, value, children⟩ := n
  have htext (s : String) : (Json.Value.text s).nesting ≤ room := Nat.zero_le room
  rw [json, Json.Value.nesting_object_le_iff]
  simp only [List.forall_mem_append, List.forall_mem_cons]
  cases hproperties : properties.isEmpty <;> cases children <;> simp [htext]

end Doc.Node

end KeyedMarkup
