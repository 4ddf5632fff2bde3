import KeyedMarkup.Proofs.Doc.Decoding
import KeyedMarkup.Proofs.Json.Finite
import KeyedMarkup.Proofs.Render.Depth

/-!
# What is accepted

Whatever text a document is read from, as objects or arrays, with ignored or repeated fields, it
has canonical kinds and finite numbers, and its own JSON value nests no deeper than the text did
in what was read. So the document is written to a text that is accepted again, and it stays away
from any usual limit of a rendering.
-/

namespace KeyedMarkup.Doc

namespace Node

mutual

/-- Each level of a document nests an object in an array. -/
theorem height_of_nesting_le (n : Node) {room : Nat} (h : n.json.nesting ≤ room) :
    2 * n.height + 1 ≤ room := by
  match n, room with
  | n, 0 => exact absurd h (not_nesting_json_le_zero n)
  | ⟨kind, properties, value, []⟩, room + 1 =>
      rw [height, heightAll]
      omega
  | ⟨kind, properties, value, c :: rest⟩, 1 =>
      -- The array of the children takes a level of its own.
      have hchildren := (nesting_json_le_iff.mp h).2 (List.cons_ne_nil c rest)
      rw [Json.Value.nesting] at hchildren
      exact absurd hchildren (Nat.not_succ_le_zero _)
  | ⟨kind, properties, value, c :: rest⟩, room + 2 =>
      have hchildren := (nesting_json_le_iff.mp h).2 (List.cons_ne_nil c rest)
      rw [Json.Value.nesting_array_le_iff] at hchildren
      have hall := heightAll_of_nesting_le (c :: rest) fun n hn =>
        hchildren n.json (mem_jsonAll.mpr ⟨n, hn, rfl⟩)
      rw [height]
      omega

theorem heightAll_of_nesting_le (ns : List Node) {room : Nat}
    (h : ∀ n ∈ ns, n.json.nesting ≤ room) : 2 * heightAll ns ≤ room + 1 := by
  match ns with
  | [] => exact Nat.zero_le _
  | n :: rest =>
      rw [List.forall_mem_cons] at h
      have hfirst := height_of_nesting_le n h.1
      have hrest := heightAll_of_nesting_le rest h.2
      rw [heightAll]
      omega

end

theorem canonicalAll_eq_self_iff {ns : List Node} :
    canonicalAll ns = ns ↔ ∀ n ∈ ns, n.canonical = n := by
  induction ns with
  | nil => simp [canonicalAll]
  | cons n rest ih => rw [canonicalAll, List.cons.injEq, ih, List.forall_mem_cons]

theorem canonical_eq_self_iff {n : Node} :
    n.canonical = n ↔ n.kind.canonical = n.kind ∧ ∀ c ∈ n.children, c.canonical = c := by
  obtain ⟨kind, properties, value, children⟩ := n
  rw [canonical, ← canonicalAll_eq_self_iff]
  simp

mutual

theorem kind_canonical_of_mem (n : Node) (h : n.canonical = n) {m : Node} (hm : m ∈ n.preorder) :
    m.kind.canonical = m.kind := by
  match n with
  | ⟨kind, properties, value, children⟩ =>
      obtain ⟨hkind, hchildren⟩ := canonical_eq_self_iff.mp h
      rw [preorder] at hm
      rcases List.mem_cons.mp hm with rfl | hm
      · exact hkind
      · exact kind_canonical_of_mem_all children hchildren hm

theorem kind_canonical_of_mem_all (ns : List Node) (h : ∀ n ∈ ns, n.canonical = n) {m : Node}
    (hm : m ∈ preorderAll ns) : m.kind.canonical = m.kind := by
  match ns with
  | [] => cases hm
  | n :: rest =>
      rw [List.forall_mem_cons] at h
      rw [preorderAll] at hm
      rcases List.mem_append.mp hm with hm | hm
      · exact kind_canonical_of_mem n h.1 hm
      · exact kind_canonical_of_mem_all rest h.2 hm

end

/-- What holds of a document that is read from a value that may nest some levels. -/
structure Accepted (room : Nat) (n : Node) : Prop where
  canonical : n.canonical = n
  finite : ∀ x ∈ n.numbers, x.isFinite = true
  nesting : n.json.nesting ≤ room

structure PropertiesAccepted (room : Nat) (ps : Properties) : Prop where
  finite : ∀ x ∈ Dict.numbers ps, x.isFinite = true
  nesting : (Dict.json ps).nesting ≤ room

/-- Children nest one level themselves. -/
def ChildrenAccepted : Nat → List Node → Prop
  | 0, _ => False
  | room + 1, ns => ∀ n ∈ ns, n.Accepted room

structure Parts.Accepted (room : Nat) (p : Parts) : Prop where
  kind : ∀ k, p.kind = some k → k.canonical = k
  properties : ∀ ps, p.properties = some ps → PropertiesAccepted room ps
  children : ∀ ns, p.children = some ns → ChildrenAccepted room ns

theorem ChildrenAccepted.nesting_le {room : Nat} {ns : List Node} (h : ChildrenAccepted room ns) :
    (Json.Value.array (jsonAll ns)).nesting ≤ room := by
  cases room with
  | zero => exact h.elim
  | succ room =>
      rw [Json.Value.nesting_array_le_iff]
      intro v hv
      obtain ⟨n, hn, rfl⟩ := mem_jsonAll.mp hv
      exact (h n hn).nesting

theorem ChildrenAccepted.each {room : Nat} {ns : List Node} (h : ChildrenAccepted room ns) :
    ∀ n ∈ ns, n.canonical = n ∧ ∀ x ∈ n.numbers, x.isFinite = true := by
  cases room with
  | zero => exact h.elim
  | succ room => exact fun n hn => ⟨(h n hn).canonical, (h n hn).finite⟩

theorem propertyOf?_accepted {room : Nat} {v : Json.Value} {p : Property}
    (h : propertyOf? room v = some p) (hv : v.IsFinite) :
    p.json.nesting ≤ room ∧ ∀ x, p.number? = some x → x.isFinite = true := by
  cases v with
  | flag b | text s =>
      cases h
      exact ⟨Nat.zero_le room, nofun⟩
  | number x =>
      cases h
      refine ⟨Nat.zero_le room, ?_⟩
      rintro _ ⟨⟩
      exact hv
  | array items =>
      obtain ⟨hroom, h⟩ := Option.ite_none_left_eq_some.mp h
      obtain ⟨ts, _, rfl⟩ := Option.map_eq_some_iff.mp h
      obtain ⟨room, rfl⟩ := Nat.exists_eq_succ_of_ne_zero hroom
      refine ⟨?_, nofun⟩
      rw [Property.json, Json.Value.nesting_array_le_iff, List.forall_mem_map]
      exact fun _ _ => Nat.zero_le room
  | null | object fields | unusable => cases h

theorem propertiesOf?_accepted {room : Nat} {v : Json.Value} {ps : Properties}
    (h : propertiesOf? room v = some ps) (hv : v.IsFinite) : PropertiesAccepted room ps := by
  cases v with
  | object fields =>
      obtain ⟨hroom, h⟩ := Option.ite_none_left_eq_some.mp h
      obtain ⟨es, hes, rfl⟩ := Option.map_eq_some_iff.mp h
      obtain ⟨room, rfl⟩ := Nat.exists_eq_succ_of_ne_zero hroom
      have hentry : ∀ e ∈ (Dict.ofList es).entries, e.2.json.nesting ≤ room ∧
          ∀ x, e.2.number? = some x → x.isFinite = true := by
        intro e he
        obtain ⟨f, hf, hread⟩ := exists_of_mem_mapM hes (Dict.mem_ofList he)
        obtain ⟨p, hp, rfl⟩ := Option.map_eq_some_iff.mp hread
        exact propertyOf?_accepted hp ((Json.Value.fieldsFinite_iff fields).mp hv f hf)
      constructor
      · intro x hx
        obtain ⟨e, he, hnumber⟩ := List.mem_filterMap.mp hx
        exact (hentry e he).2 x hnumber
      · rw [Dict.nesting_json_le_iff]
        exact fun e he => (hentry e he).1
  | null | flag b | number x | text s | array items | unusable => cases h

namespace Parts

variable {room : Nat} {p p' : Parts}

theorem accepted_empty : Accepted room {} := ⟨nofun, nofun, nofun⟩

theorem setKind_accepted {v : Json.Value} (h : p.setKind v = some p') (hp : p.Accepted room) :
    p'.Accepted room := by
  unfold setKind at h
  split at h
  next s _ =>
    cases h
    refine ⟨?_, hp.properties, hp.children⟩
    rintro _ ⟨⟩
    exact Kind.canonical_ofName s
  next => cases h

theorem setProperties_accepted {v : Json.Value} (hv : v.IsFinite)
    (h : p.setProperties room v = some p') (hp : p.Accepted room) : p'.Accepted room := by
  unfold setProperties at h
  split at h
  next ps _ hread =>
    cases h
    refine ⟨hp.kind, ?_, hp.children⟩
    rintro _ ⟨⟩
    exact propertiesOf?_accepted hread hv
  next => cases h

theorem setValue_accepted {v : Json.Value} (h : p.setValue v = some p') (hp : p.Accepted room) :
    p'.Accepted room := by
  unfold setValue at h
  split at h
  next =>
    cases h
    exact ⟨hp.kind, hp.properties, hp.children⟩
  next => cases h

theorem setChildren_accepted {ns : List Node} (hns : ChildrenAccepted room ns)
    (h : p.setChildren ns = some p') (hp : p.Accepted room) : p'.Accepted room := by
  unfold setChildren at h
  split at h
  next =>
    cases h
    refine ⟨hp.kind, hp.properties, ?_⟩
    rintro _ ⟨⟩
    exact hns
  next => cases h

theorem node?_accepted {n : Node} (h : p.node? = some n) (hp : p.Accepted room) :
    n.Accepted (room + 1) := by
  obtain ⟨kind, hkind, rfl⟩ := Option.map_eq_some_iff.mp h
  -- What was not given is empty, so it is left out of the value of the node.
  have hproperties : (∀ x ∈ Dict.numbers (p.properties.getD .empty), x.isFinite = true) ∧
      ((p.properties.getD .empty).isEmpty = false →
        (Dict.json (p.properties.getD .empty)).nesting ≤ room) := by
    cases hps : p.properties with
    | none => exact ⟨nofun, nofun⟩
    | some ps => exact ⟨(hp.properties ps hps).finite, fun _ => (hp.properties ps hps).nesting⟩
  have hchildren : (∀ n ∈ p.children.getD [], n.canonical = n ∧
      ∀ x ∈ n.numbers, x.isFinite = true) ∧ (p.children.getD [] ≠ [] →
        (Json.Value.array (jsonAll (p.children.getD []))).nesting ≤ room) := by
    cases hns : p.children with
    | none => exact ⟨nofun, fun hne => absurd rfl hne⟩
    | some ns => exact ⟨(hp.children ns hns).each, fun _ => (hp.children ns hns).nesting_le⟩
  constructor
  · rw [canonical_eq_self_iff]
    exact ⟨hp.kind kind hkind, fun c hc => (hchildren.1 c hc).1⟩
  · intro x hx
    rcases mem_numbers.mp hx with hx | ⟨c, hc, hx⟩
    · exact hproperties.1 x hx
    · exact (hchildren.1 c hc).2 x hx
  · exact nesting_json_le_iff.mpr ⟨hproperties.2, hchildren.2⟩

end Parts

mutual

theorem ofJson?_accepted (v : Json.Value) (hv : v.IsFinite) {room : Nat} {n : Node}
    (h : ofJson? room v = some n) : n.Accepted room := by
  match v with
  | .object fields =>
      obtain ⟨hroom, h⟩ := Option.ite_none_left_eq_some.mp h
      obtain ⟨p, hparts, hnode⟩ := Option.bind_eq_some_iff.mp h
      obtain ⟨room, rfl⟩ := Nat.exists_eq_succ_of_ne_zero hroom
      exact Parts.node?_accepted hnode (ofFields?_accepted fields hv hparts Parts.accepted_empty)
  | .array items =>
      obtain ⟨hroom, h⟩ := Option.ite_none_left_eq_some.mp h
      obtain ⟨p, hparts, hnode⟩ := Option.bind_eq_some_iff.mp h
      obtain ⟨room, rfl⟩ := Nat.exists_eq_succ_of_ne_zero hroom
      exact Parts.node?_accepted hnode (ofItems?_accepted items hv hparts)
  | .null | .flag b | .number x | .text s | .unusable => cases h

theorem ofFields?_accepted (fields : List (String × Json.Value))
    (hv : Json.Value.FieldsFinite fields) {room : Nat} {p p' : Parts}
    (h : ofFields? room p fields = some p') (hp : p.Accepted room) : p'.Accepted room := by
  match fields with
  | [] =>
      cases h
      exact hp
  | (name, v) :: rest =>
      unfold ofFields? at h
      split at h
      next p'' htaken =>
        apply ofFields?_accepted rest hv.2 h
        split at htaken
        · exact Parts.setKind_accepted htaken hp
        · exact Parts.setProperties_accepted hv.1 htaken hp
        · exact Parts.setValue_accepted htaken hp
        · obtain ⟨ns, hns, htaken⟩ := Option.bind_eq_some_iff.mp htaken
          exact Parts.setChildren_accepted (childrenOf?_accepted v hv.1 hns) htaken hp
        · cases htaken
          exact hp
      next => cases h

theorem ofItems?_accepted (items : List Json.Value) (hv : Json.Value.ItemsFinite items)
    {room : Nat} {p : Parts} (h : ofItems? room items = some p) : p.Accepted room := by
  have hempty : Parts.Accepted room {} := Parts.accepted_empty
  match items with
  | [kind] => exact Parts.setKind_accepted h hempty
  | [kind, properties] =>
      obtain ⟨p₁, h₁, h⟩ := Option.bind_eq_some_iff.mp h
      have hp₁ := Parts.setKind_accepted h₁ hempty
      exact Parts.setProperties_accepted hv.2.1 h hp₁
  | [kind, properties, value] =>
      obtain ⟨p₂, h₂, h⟩ := Option.bind_eq_some_iff.mp h
      obtain ⟨p₁, h₁, h₂⟩ := Option.bind_eq_some_iff.mp h₂
      have hp₁ := Parts.setKind_accepted h₁ hempty
      have hp₂ := Parts.setProperties_accepted hv.2.1 h₂ hp₁
      exact Parts.setValue_accepted h hp₂
  | [kind, properties, value, children] =>
      obtain ⟨p₃, h₃, h⟩ := Option.bind_eq_some_iff.mp h
      obtain ⟨p₂, h₂, h₃⟩ := Option.bind_eq_some_iff.mp h₃
      obtain ⟨p₁, h₁, h₂⟩ := Option.bind_eq_some_iff.mp h₂
      obtain ⟨ns, hns, h⟩ := Option.bind_eq_some_iff.mp h
      have hp₁ := Parts.setKind_accepted h₁ hempty
      have hp₂ := Parts.setProperties_accepted hv.2.1 h₂ hp₁
      have hp₃ := Parts.setValue_accepted h₃ hp₂
      exact Parts.setChildren_accepted (childrenOf?_accepted children hv.2.2.2.1 hns) h hp₃
  | [] | _ :: _ :: _ :: _ :: _ :: _ => cases h

theorem childrenOf?_accepted (v : Json.Value) (hv : v.IsFinite) {room : Nat} {ns : List Node}
    (h : childrenOf? room v = some ns) : ChildrenAccepted room ns := by
  match v with
  | .array items =>
      obtain ⟨hroom, h⟩ := Option.ite_none_left_eq_some.mp h
      obtain ⟨room, rfl⟩ := Nat.exists_eq_succ_of_ne_zero hroom
      exact ofAll?_accepted items hv h
  | .object fields | .null | .flag b | .number x | .text s | .unusable => cases h

theorem ofAll?_accepted (items : List Json.Value) (hv : Json.Value.ItemsFinite items)
    {room : Nat} {ns : List Node} (h : ofAll? room items = some ns) :
    ∀ n ∈ ns, n.Accepted room := by
  match items with
  | [] =>
      cases h
      exact nofun
  | v :: rest =>
      rw [ofAll?] at h
      split at h
      next n ns hn hns =>
        cases h
        rw [List.forall_mem_cons]
        exact ⟨ofJson?_accepted v hv.1 hn, ofAll?_accepted rest hv.2 hns⟩
      next => cases h

end

theorem accepted_of_ofJsonText? {text : String} {n : Node} (h : ofJsonText? text = some n) :
    n.Accepted nestingLimit := by
  obtain ⟨v, hv, hn⟩ := Option.bind_eq_some_iff.mp h
  exact ofJson?_accepted v (Json.Value.isFinite_of_ofText? hv) hn

namespace Accepted

variable {n : Node}

theorem depth_le (h : n.Accepted nestingLimit) : n.depth ≤ 63 := by
  have hheight := height_of_nesting_le n h.nesting
  rw [nestingLimit] at hheight
  rw [depth_eq_height]
  omega

theorem name_ne (h : n.Accepted nestingLimit) {m : Node} (hm : m ∈ n.nodes) {name : String}
    (hkind : m.kind = .other name) {kind : Kind} (hrecognized : kind.recognized = true) :
    kind.name ≠ name := by
  rw [nodes_eq_preorder] at hm
  have hcanonical := kind_canonical_of_mem n h.canonical hm
  rw [hkind] at hcanonical
  exact Kind.name_ne_of_canonical hcanonical hrecognized

theorem exists_prepared (h : n.Accepted nestingLimit) {o : Render.Options}
    (ho : 64 ≤ o.maxDepth) : ∃ hypertext, o.prepare n = .ok hypertext := by
  have hdepth := h.depth_le
  have hlevels : Render.levels n ≤ o.maxDepth := by
    rw [Render.levels_eq]
    rw [depth_eq_height] at hdepth
    split <;> omega
  exact ⟨_, Render.prepare_eq_ok_iff.mpr ⟨hlevels, rfl⟩⟩

theorem reads_again (h : n.Accepted nestingLimit) (hreads : ∀ x ∈ n.numbers, Json.ReadsBack x) :
    ofJsonText? n.jsonText = some n := by
  rw [ofJsonText?_jsonText_eq, ofJson?_json n hreads, if_pos h.nesting, h.canonical]

end Accepted

/-- A document that is read from any text has canonical kinds, finite numbers and at most 63
levels, so it is prepared under every limit from 64 on, and it is read again from its own text. -/
theorem accepted_again {text : String} {n : Node} (h : ofJsonText? text = some n) :
    (∀ m ∈ n.nodes, ∀ name, m.kind = .other name →
        ∀ kind : Kind, kind.recognized = true → kind.name ≠ name) ∧
      (∀ x ∈ n.numbers, x.isFinite = true) ∧
      n.depth ≤ 63 ∧
      (∀ o : Render.Options, 64 ≤ o.maxDepth → ∃ hypertext, o.prepare n = .ok hypertext) ∧
      ((∀ x ∈ n.numbers, Json.ReadsBack x) → ofJsonText? n.jsonText = some n) := by
  have haccepted := accepted_of_ofJsonText? h
  refine ⟨?_, haccepted.finite, haccepted.depth_le, ?_, haccepted.reads_again⟩
  · intro m hm name hkind kind hrecognized
    exact haccepted.name_ne hm hkind hrecognized
  · intro o ho
    exact haccepted.exists_prepared ho

/-- A heading in the form of an array, whose depth is given twice, within a root. -/
theorem accepted_again_twiceDeep :
    let text := "[\"root\", \x7b\x7d, null, [[\"heading\", \x7b\"depth\": 1, \"depth\": 2\x7d]]]"
    let heading : Node := ⟨.heading, .ofList [("depth", .number (.ofNat 2))], none, []⟩
    let n : Node := .parent .root [heading]
    ofJsonText? text = some n ∧ (∀ x ∈ n.numbers, Json.ReadsBack x) ∧ n.depth ≤ 63 ∧
      (∃ hypertext, Render.Options.prepare { maxDepth := 64 } n = .ok hypertext) ∧
      ofJsonText? n.jsonText = some n := by
  intro text heading n
  have htokens : Json.tokens? text = some [.openBracket, .text (some "root"), .comma, .openBrace,
      .closeBrace, .comma, .null, .comma, .openBracket, .openBracket, .text (some "heading"),
      .comma, .openBrace, .text (some "depth"), .colon, .number (some (.ofNat 1)), .comma,
      .text (some "depth"), .colon, .number (some (.ofNat 2)), .closeBrace, .closeBracket,
      .closeBracket, .closeBracket] := by decide +kernel
  have hread : ofJsonText? text = some n := by
    rw [ofJsonText?, Json.Value.ofText?, htokens]
    rfl
  have hreads : ∀ x ∈ n.numbers, Json.ReadsBack x := by
    have hnumbers : n.numbers = [.ofNat 2] := by
      rw [numbers, nodes_eq_preorder]
      rfl
    rw [hnumbers, List.forall_mem_singleton]
    decide +kernel
  obtain ⟨_, _, hdepth, hprepared, hagain⟩ := accepted_again hread
  exact ⟨hread, hreads, hdepth, hprepared _ (Nat.le_refl 64), hagain hreads⟩

end Node

end KeyedMarkup.Doc
