import KeyedMarkup.Proofs.Doc.Canonical
import KeyedMarkup.Proofs.Json.Reading

/-!
# Decoding what was encoded

A document is read from its own JSON text with canonical kinds, exactly if its value nests no
deeper than the reader goes. Nothing is read if it has a number that is not finite, since that is
written as `null`, which is no property.
-/

namespace KeyedMarkup

theorem mapM_eq_some {α β : Type} {f : α → Option β} {g : β → α} {bs : List β}
    (h : ∀ b ∈ bs, f (g b) = some b) : (bs.map g).mapM f = some bs := by
  induction bs with
  | nil => rfl
  | cons b bs ih =>
      rw [List.forall_mem_cons] at h
      rw [List.map_cons, List.mapM_cons, h.1, ih h.2]
      rfl

theorem mapM_eq_none {α β : Type} {f : α → Option β} {as : List α} (h : ∃ a ∈ as, f a = none) :
    as.mapM f = none := by
  induction as with
  | nil => simp at h
  | cons a as ih =>
      rw [List.mapM_cons]
      simp only [List.mem_cons, exists_eq_or_imp] at h
      rcases h with h | h
      · rw [h]
        rfl
      · rw [ih h]
        cases f a <;> rfl

theorem exists_of_mem_mapM {α β : Type} {f : α → Option β} {as : List α} {bs : List β}
    (h : as.mapM f = some bs) {b : β} (hb : b ∈ bs) : ∃ a ∈ as, f a = some b := by
  induction as generalizing bs with
  | nil =>
      cases h
      cases hb
  | cons a as ih =>
      rw [List.mapM_cons] at h
      obtain ⟨c, hc, h⟩ := Option.bind_eq_some_iff.mp h
      obtain ⟨cs, hcs, h⟩ := Option.bind_eq_some_iff.mp h
      cases h
      rcases List.mem_cons.mp hb with rfl | hb
      · exact ⟨a, List.mem_cons_self, hc⟩
      · obtain ⟨a', ha', hfound⟩ := ih hcs hb
        exact ⟨a', List.mem_cons_of_mem a ha', hfound⟩

theorem Dict.eq_empty {α : Type} {d : Dict α} (h : d.isEmpty = true) : d = .empty :=
  Dict.ext (List.isEmpty_iff.mp h)

namespace Doc.Node

theorem propertyOf?_json {p : Property} (h : ∀ x, p = .number x → Json.ReadsBack x)
    (room : Nat) :
    propertyOf? room p.json.reread = if p.json.nesting ≤ room then some p else none := by
  cases p with
  | flag b => rfl
  | number x =>
      rw [Property.json, Json.Value.reread, (h x rfl).readNumber_eq]
      rfl
  | text s => rfl
  | tokens ts =>
      have hitems : (Json.Value.array (ts.map .text)).reread = .array (ts.map .text) := by
        rw [Json.Value.reread_array, List.map_map]
        rfl
      have hnesting : (Json.Value.array (ts.map .text)).nesting = 1 := by
        have hleaves : Json.Value.nestingItems (ts.map .text) ≤ 0 := by
          rw [Json.Value.nestingItems_le_iff, List.forall_mem_map]
          exact fun _ _ => Nat.le_refl 0
        rw [Json.Value.nesting, Nat.le_zero.mp hleaves]
      rw [Property.json, hitems, hnesting, propertyOf?, mapM_eq_some]
      · cases room with
        | zero => rfl
        | succ room => simp
      · exact fun _ _ => rfl

theorem propertyOf?_json_of_not_isFinite {x : Binary64} (h : ¬x.isFinite = true) (room : Nat) :
    propertyOf? room (Property.number x).json.reread = none := by
  rw [Property.json, Json.Value.reread, Json.readNumber_of_not_isFinite h]
  rfl

theorem reread_json (ps : Properties) :
    (Dict.json ps).reread = .object (ps.entries.map fun e => (e.1, e.2.json.reread)) := by
  rw [Dict.json, Json.Value.reread_object, List.map_map]
  rfl

theorem mem_numbers_of_mem_entries {ps : Properties} {e : String × Property}
    (he : e ∈ ps.entries) {x : Binary64} (hx : e.2 = .number x) : x ∈ Dict.numbers ps := by
  refine List.mem_filterMap.mpr ⟨e, he, ?_⟩
  rw [hx]
  rfl

theorem propertiesOf?_json {ps : Properties} (h : ∀ x ∈ Dict.numbers ps, Json.ReadsBack x)
    (room : Nat) :
    propertiesOf? room (Dict.json ps).reread =
      if (Dict.json ps).nesting ≤ room then some ps else none := by
  rw [reread_json]
  cases room with
  | zero => rfl
  | succ room =>
      have hread (e : String × Property) (he : e ∈ ps.entries) :
          ((propertyOf? room e.2.json.reread).map fun p => (e.1, p)) =
            if e.2.json.nesting ≤ room then some e else none := by
        rw [propertyOf?_json (fun x hx => h x (mem_numbers_of_mem_entries he hx))]
        split <;> rfl
      rw [propertiesOf?, if_neg (Nat.succ_ne_zero room), Nat.add_sub_cancel]
      by_cases hfits : (Dict.json ps).nesting ≤ room + 1
      · have hentries := Dict.nesting_json_le_iff.mp hfits
        rw [if_pos hfits, mapM_eq_some, Option.map_some, Dict.ofList_entries]
        intro e he
        rw [hread e he, if_pos (hentries e he)]
      · rw [if_neg hfits]
        rw [Dict.nesting_json_le_iff] at hfits
        push Not at hfits
        obtain ⟨e, he, hdeep⟩ := hfits
        rw [mapM_eq_none, Option.map_none]
        refine ⟨_, List.mem_map_of_mem he, ?_⟩
        rw [hread e he, if_neg (Nat.not_le.mpr hdeep)]

theorem optional_propertiesOf?_json {ps : Properties}
    (h : ∀ x ∈ Dict.numbers ps, Json.ReadsBack x) (room : Nat) :
    (if ps.isEmpty then some .empty else propertiesOf? room (Dict.json ps).reread) =
      if ps.isEmpty = false → (Dict.json ps).nesting ≤ room then some ps else none := by
  cases hempty : ps.isEmpty with
  | true => simp [Dict.eq_empty hempty]
  | false => simp [propertiesOf?_json h]

theorem propertiesOf?_json_of_not_isFinite {ps : Properties}
    (h : ∃ x ∈ Dict.numbers ps, ¬x.isFinite = true) (room : Nat) :
    propertiesOf? room (Dict.json ps).reread = none := by
  obtain ⟨x, hx, hinfinite⟩ := h
  obtain ⟨⟨name, p⟩, he, hp⟩ := List.mem_filterMap.mp hx
  obtain rfl : p = .number x := by
    cases p with
    | number y => rw [Option.some.inj hp]
    | flag b | text s | tokens ts => cases hp
  rw [reread_json, propertiesOf?]
  split
  · rfl
  · rw [mapM_eq_none, Option.map_none]
    refine ⟨_, List.mem_map_of_mem he, ?_⟩
    rw [propertyOf?_json_of_not_isFinite hinfinite]
    rfl

section Fields

variable (room : Nat) (v : Json.Value) (rest : List (String × Json.Value)) {p : Parts}

theorem ofFields?_nil (p : Parts) : ofFields? room p [] = some p := rfl

theorem ofFields?_type (s : String) (hp : p.kind = none) :
    ofFields? room p (("type", .text s) :: rest) =
      ofFields? room { p with kind := some (.ofName s) } rest := by
  have hkind : p.setKind (.text s) = some { p with kind := some (.ofName s) } := by
    simp only [Parts.setKind, hp]
  rw [ofFields?, hkind]

theorem ofFields?_properties (hp : p.properties = none) :
    ofFields? room p (("properties", v) :: rest) =
      (propertiesOf? room v).bind fun ps =>
        ofFields? room { p with properties := some ps } rest := by
  rw [ofFields?, Parts.setProperties, hp]
  cases propertiesOf? room v <;> rfl

theorem ofFields?_value (s : String) (hp : p.value = none) :
    ofFields? room p (("value", .text s) :: rest) =
      ofFields? room { p with value := some (some s) } rest := by
  rw [ofFields?, Parts.setValue, hp]
  rfl

theorem ofFields?_children (hp : p.children = none) :
    ofFields? room p (("children", v) :: rest) =
      (childrenOf? room v).bind fun ns =>
        ofFields? room { p with children := some ns } rest := by
  rw [ofFields?]
  cases childrenOf? room v with
  | none => rfl
  | some ns =>
      rw [Option.bind_some, Parts.setChildren, hp]
      rfl

end Fields

/-- A node is read from its properties and its children; its kind and its text can always be
read. -/
theorem ofJson?_json_eq (n : Node) (room : Nat) :
    ofJson? (room + 1) n.json.reread =
      (if n.properties.isEmpty then some .empty
        else propertiesOf? room (Dict.json n.properties).reread).bind fun ps =>
      (if n.children.isEmpty then some []
        else childrenOf? room (Json.Value.array (jsonAll n.children)).reread).map fun ns =>
      ⟨n.kind.canonical, ps, n.value, ns⟩ := by
  obtain ⟨kind, properties, value, children⟩ := n
  rw [json, Json.Value.reread_object, ofJson?, if_neg (Nat.succ_ne_zero room),
    Nat.add_sub_cancel, ← Kind.ofName_name]
  cases properties.isEmpty <;> cases value <;> cases children.isEmpty <;>
    simp [ofFields?_nil, ofFields?_type, ofFields?_properties, ofFields?_value,
      ofFields?_children, Json.Value.reread_text, Parts.node?, Option.bind_assoc,
      Option.map_eq_bind]

theorem childrenOf?_array (items : List Json.Value) (room : Nat) :
    childrenOf? (room + 1) (.array items) = ofAll? room items := by
  rw [childrenOf?, if_neg (Nat.succ_ne_zero room), Nat.add_sub_cancel]

theorem optional_childrenOf?_json {ns : List Node}
    (hall : ∀ room, ofAll? room ((jsonAll ns).map Json.Value.reread) =
      if Json.Value.nestingItems (jsonAll ns) ≤ room then some (canonicalAll ns) else none)
    (room : Nat) :
    (if ns.isEmpty then some []
      else childrenOf? room (Json.Value.array (jsonAll ns)).reread) =
      if ns ≠ [] → (Json.Value.array (jsonAll ns)).nesting ≤ room then some (canonicalAll ns)
      else none := by
  cases ns with
  | nil => rfl
  | cons n rest =>
      rw [Json.Value.reread_array, Json.Value.nesting]
      cases room with
      | zero => simp [childrenOf?]
      | succ room => simp [childrenOf?_array, hall]

theorem not_nesting_json_le_zero (n : Node) : ¬n.json.nesting ≤ 0 := by
  obtain ⟨kind, properties, value, children⟩ := n
  rw [json, Json.Value.nesting]
  exact Nat.not_succ_le_zero _

theorem ofJson?_zero (v : Json.Value) : ofJson? 0 v = none := by
  cases v <;> rfl

mutual

theorem ofJson?_json (n : Node) (h : ∀ x ∈ n.numbers, Json.ReadsBack x) (room : Nat) :
    ofJson? room n.json.reread = if n.json.nesting ≤ room then some n.canonical else none := by
  match n, room with
  | n, 0 => rw [if_neg (not_nesting_json_le_zero n), ofJson?_zero]
  | ⟨kind, properties, value, children⟩, room + 1 =>
      have hproperties : ∀ x ∈ Dict.numbers properties, Json.ReadsBack x :=
        fun x hx => h x (mem_numbers.mpr (.inl hx))
      have hchildren : ∀ c ∈ children, ∀ x ∈ c.numbers, Json.ReadsBack x :=
        fun c hc x hx => h x (mem_numbers.mpr (.inr ⟨c, hc, hx⟩))
      rw [ofJson?_json_eq, optional_propertiesOf?_json hproperties,
        optional_childrenOf?_json (ofAll?_jsonAll children hchildren)]
      simp only [nesting_json_le_iff, canonical]
      by_cases hps : properties.isEmpty = false → (Dict.json properties).nesting ≤ room
      · by_cases hns : children ≠ [] → (Json.Value.array (jsonAll children)).nesting ≤ room
        · rw [if_pos hps, if_pos hns, if_pos ⟨hps, hns⟩]
          rfl
        · have hboth := not_and_of_not_right
            (properties.isEmpty = false → (Dict.json properties).nesting ≤ room) hns
          rw [if_pos hps, if_neg hns, if_neg hboth]
          rfl
      · have hboth := not_and_of_not_left
          (children ≠ [] → (Json.Value.array (jsonAll children)).nesting ≤ room) hps
        rw [if_neg hps, if_neg hboth]
        rfl

theorem ofAll?_jsonAll (ns : List Node) (h : ∀ n ∈ ns, ∀ x ∈ n.numbers, Json.ReadsBack x)
    (room : Nat) :
    ofAll? room ((jsonAll ns).map Json.Value.reread) =
      if Json.Value.nestingItems (jsonAll ns) ≤ room then some (canonicalAll ns) else none := by
  match ns with
  | [] => rfl
  | n :: rest =>
      rw [List.forall_mem_cons] at h
      rw [jsonAll, List.map_cons, ofAll?, ofJson?_json n h.1, ofAll?_jsonAll rest h.2,
        Json.Value.nestingItems, canonicalAll]
      simp only [Nat.max_le]
      by_cases hn : n.json.nesting ≤ room
      · by_cases hrest : Json.Value.nestingItems (jsonAll rest) ≤ room
        · rw [if_pos hn, if_pos hrest, if_pos ⟨hn, hrest⟩]
        · rw [if_pos hn, if_neg hrest, if_neg (not_and_of_not_right _ hrest)]
      · rw [if_neg hn, if_neg (not_and_of_not_left _ hn)]

end

theorem isEmpty_eq_false_of_mem_numbers {ps : Properties} {x : Binary64}
    (h : x ∈ Dict.numbers ps) : ps.isEmpty = false := by
  obtain ⟨e, he, _⟩ := List.mem_filterMap.mp h
  exact List.isEmpty_eq_false_iff.mpr (List.ne_nil_of_mem he)

mutual

theorem ofJson?_json_of_not_isFinite (n : Node) (h : ∃ x ∈ n.numbers, ¬x.isFinite = true)
    (room : Nat) : ofJson? room n.json.reread = none := by
  match n, room with
  | n, 0 => exact ofJson?_zero _
  | ⟨kind, properties, value, children⟩, room + 1 =>
      obtain ⟨x, hx, hinfinite⟩ := h
      rw [ofJson?_json_eq]
      rcases mem_numbers.mp hx with hx | ⟨c, hc, hx⟩
      · rw [if_neg (Bool.eq_false_iff.mp (isEmpty_eq_false_of_mem_numbers hx)),
          propertiesOf?_json_of_not_isFinite ⟨x, hx, hinfinite⟩]
        rfl
      · have hall := ofAll?_jsonAll_of_not_isFinite children ⟨c, hc, x, hx, hinfinite⟩
        have hchildren : childrenOf? room (Json.Value.array (jsonAll children)).reread = none := by
          rw [Json.Value.reread_array]
          cases room with
          | zero => rfl
          | succ room => rw [childrenOf?_array, hall]
        have hne : ¬children.isEmpty = true :=
          Bool.eq_false_iff.mp (List.isEmpty_eq_false_iff.mpr (List.ne_nil_of_mem hc))
        rw [if_neg hne, hchildren]
        exact Option.bind_fun_none _

theorem ofAll?_jsonAll_of_not_isFinite (ns : List Node)
    (h : ∃ n ∈ ns, ∃ x ∈ n.numbers, ¬x.isFinite = true) (room : Nat) :
    ofAll? room ((jsonAll ns).map Json.Value.reread) = none := by
  match ns with
  | [] => simp at h
  | n :: rest =>
      rw [jsonAll, List.map_cons, ofAll?]
      simp only [List.mem_cons, exists_eq_or_imp] at h
      rcases h with h | h
      · rw [ofJson?_json_of_not_isFinite n h]
      · rw [ofAll?_jsonAll_of_not_isFinite rest h]
        cases ofJson? room n.json.reread <;> rfl

end

theorem ofJsonText?_jsonText_eq (n : Node) :
    ofJsonText? n.jsonText = ofJson? nestingLimit n.json.reread := by
  rw [ofJsonText?, jsonText, Json.Value.ofText?_compact]
  rfl

/-- A document whose numbers can be read again is read from its text with canonical kinds if the
text nests no deeper than 127, and not at all otherwise. With a number that is not finite nothing
is read. -/
theorem ofJsonText?_jsonText (n : Node) :
    ((∀ x ∈ n.numbers, Json.ReadsBack x) →
        ofJsonText? n.jsonText = if n.json.nesting ≤ 127 then some n.canonical else none) ∧
      ((∃ x ∈ n.numbers, ¬x.isFinite = true) → ofJsonText? n.jsonText = none) := by
  rw [ofJsonText?_jsonText_eq]
  constructor
  · intro h
    exact ofJson?_json n h nestingLimit
  · intro h
    exact ofJson?_json_of_not_isFinite n h nestingLimit

/-- A heading that was given its kind by name, with a depth of two or with none at all. -/
theorem ofJsonText?_jsonText_headings :
    let heading (x : Binary64) : Node :=
      ⟨.other "heading", .ofList [("depth", .number x)], none, []⟩
    let two : Binary64 := .ofNat 2
    let nan : Binary64 := ⟨0x7FF8000000000000⟩
    ((∀ x ∈ (heading two).numbers, Json.ReadsBack x) ∧
        ofJsonText? (heading two).jsonText = some { heading two with kind := .heading }) ∧
      (∃ x ∈ (heading nan).numbers, ¬x.isFinite = true) ∧
        ofJsonText? (heading nan).jsonText = none := by
  intro heading two nan
  have hnumbers (x : Binary64) : (heading x).numbers = [x] := by
    rw [numbers, nodes_eq_preorder]
    rfl
  have hreads : ∀ x ∈ (heading two).numbers, Json.ReadsBack x := by
    rw [hnumbers, List.forall_mem_singleton]
    decide +kernel
  have hinfinite : ∃ x ∈ (heading nan).numbers, ¬x.isFinite = true := by
    rw [hnumbers]
    exact ⟨nan, List.mem_singleton_self nan, by decide +kernel⟩
  have hnesting : (heading two).json.nesting = 2 := rfl
  refine ⟨⟨hreads, ?_⟩, hinfinite, (ofJsonText?_jsonText (heading nan)).2 hinfinite⟩
  rw [(ofJsonText?_jsonText (heading two)).1 hreads, hnesting]
  rfl

end Doc.Node

end KeyedMarkup
