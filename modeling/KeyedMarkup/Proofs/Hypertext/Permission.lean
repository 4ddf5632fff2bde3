import KeyedMarkup.Hypertext.Sanitize
import KeyedMarkup.Proofs.Hypertext.Nodes

/-!
# What a schema permits

Said of single nodes: no root and no raw HTML is permitted, an element has an allowed tag that is
not stripped, and each of its attributes is listed, has passed the check of its addresses or
carries the prefix. Below the root of a sanitized tree every node is permitted.
-/

namespace KeyedMarkup

def Property.strings : Property → List String
  | .flag _ | .number _ => []
  | .text s => [s]
  | .tokens ts => ts

namespace Hypertext

namespace Schema

variable (s : Schema)

/-- Whether the attribute stands in the entry of a tag, or in that of all tags. -/
def ListsUnder (key name : String) : Prop :=
  ∃ names, s.attributes.get? key = some names ∧ name ∈ names.toList

/-- Whether the attribute is listed for the tag or for every tag. -/
def Lists (tag name : String) : Prop := s.ListsUnder tag name ∨ s.ListsUnder anyTag name

/-- Addresses are checked unless the attribute has a prefix, which every text then carries. -/
def PermitsValue (name : String) (value : Property) : Prop :=
  (name ∉ s.clobber.toList → ∀ t ∈ value.strings, s.allowsUrl name t = true) ∧
    (name ∈ s.clobber.toList → ∀ t ∈ value.strings, s.clobberPrefix.toList <+: t.toList)

/-- Whether a node may stand below the root of a sanitized tree, its children apart. -/
def Permits : Node → Prop
  | .root _ | .raw _ => False
  | .text _ => True
  | .element e =>
      e.tag ∈ s.tags.toList ∧ e.tag ∉ s.strip.toList ∧
        ∀ name value, (name, value) ∈ e.properties.entries →
          s.Lists e.tag name ∧ s.PermitsValue name value

theorem listsUnder_iff (key name : String) :
    s.ListsUnder key name ↔
      ((s.attributes.get? key).any fun names => names.contains name) = true := by
  unfold ListsUnder
  cases s.attributes.get? key <;> simp

theorem allowsAttribute_iff (tag name : String) :
    s.allowsAttribute tag name = true ↔ s.Lists tag name := by
  rw [Lists, listsUnder_iff, listsUnder_iff, allowsAttribute, List.any_cons, List.any_cons,
    List.any_nil, Bool.or_false, Bool.or_eq_true]
  cases s.attributes.get? tag <;> cases s.attributes.get? anyTag <;> rfl

theorem allowsValue_iff (name : String) (value : Property) :
    s.allowsValue name value = true ↔ ∀ t ∈ value.strings, s.allowsUrl name t = true := by
  cases value <;> simp [allowsValue, Property.strings]

theorem prefix_clobbered (t : String) : s.clobberPrefix.toList <+: (s.clobbered t).toList := by
  unfold clobbered
  split
  next h => exact List.isPrefixOf_iff_prefix.mp h
  next => simp

theorem clobberValue_of_mem {name : String} (h : name ∈ s.clobber.toList) (value : Property) :
    (s.clobberValue name value).strings = value.strings.map s.clobbered := by
  cases value <;> simp [clobberValue, h, Property.strings]

theorem clobberValue_of_not_mem {name : String} (h : name ∉ s.clobber.toList)
    (value : Property) : s.clobberValue name value = value := by
  simp [clobberValue, h]

theorem permitsValue_clobberValue {name : String} {value : Property}
    (h : s.allowsValue name value = true) :
    s.PermitsValue name (s.clobberValue name value) := by
  constructor
  · intro hname
    rw [s.clobberValue_of_not_mem hname]
    exact (s.allowsValue_iff name value).mp h
  · intro hname t ht
    rw [s.clobberValue_of_mem hname] at ht
    obtain ⟨u, _, rfl⟩ := List.mem_map.mp ht
    exact s.prefix_clobbered u

theorem cleanProperties_permitted {tag name : String} {value : Property} {ps : Properties}
    (h : (name, value) ∈ (s.cleanProperties tag ps).entries) :
    s.Lists tag name ∧ s.PermitsValue name value := by
  simp only [cleanProperties, Dict.mem_mapValues, Dict.mem_filter, Bool.and_eq_true] at h
  obtain ⟨v, ⟨_, hlisted, hvalue⟩, rfl⟩ := h
  exact ⟨(s.allowsAttribute_iff tag name).mp hlisted, s.permitsValue_clobberValue hvalue⟩

end Schema

namespace Node

variable (s : Schema)

theorem cleanAll_append (ms ns : List Node) :
    cleanAll s (ms ++ ns) = cleanAll s ms ++ cleanAll s ns := by
  induction ms with
  | nil => rfl
  | cons m ms ih => rw [List.cons_append, cleanAll, cleanAll, ih, List.append_assoc]

theorem cleanAll_singleton (n : Node) : cleanAll s [n] = clean s n := List.append_nil _

mutual

theorem clean_permitted (n : Node) : ∀ m ∈ nodesOfAll (clean s n), s.Permits m := by
  cases n with
  | root children => simpa only [clean] using cleanAll_permitted children
  | text value => simp [clean, nodesOfAll, nodes, Schema.Permits]
  | raw value => simp [clean, nodesOfAll]
  | element e =>
      obtain ⟨tag, properties, children, kind⟩ := e
      have hchildren := cleanAll_permitted children
      rw [clean]
      split
      · simp [nodesOfAll]
      next hstrip =>
        split
        next htag =>
          intro m hm
          rw [nodesOfAll, nodesOfAll, List.append_nil, nodes] at hm
          rcases List.mem_cons.mp hm with rfl | hm
          · exact ⟨Names.contains_iff.mp htag, by simpa using hstrip,
              fun _ _ => s.cleanProperties_permitted⟩
          · exact hchildren m hm
        next => exact hchildren

theorem cleanAll_permitted (ns : List Node) : ∀ m ∈ nodesOfAll (cleanAll s ns), s.Permits m := by
  cases ns with
  | nil => simp [cleanAll, nodesOfAll]
  | cons n rest =>
      rw [cleanAll, nodesOfAll_append]
      exact List.forall_mem_append.mpr ⟨clean_permitted n, cleanAll_permitted rest⟩

end

/-- A sanitized tree is a root below which every node is permitted. -/
theorem sanitize_permitted (h : Node) :
    (∃ children, h.sanitize s = .root children) ∧
      ∀ m ∈ (h.sanitize s).descendants, s.Permits m :=
  ⟨⟨_, rfl⟩, clean_permitted s h⟩

end Node

end Hypertext

end KeyedMarkup
