import KeyedMarkup.Config.Basic
import KeyedMarkup.Proofs.Hypertext.Extension

/-!
# The schema of a configuration

The additions of a configuration extend GitHub's schema by exactly their tags and attributes. What
is stripped, checked or given a prefix stays as it was, and without additions so does the whole
schema.
-/

namespace KeyedMarkup

namespace Hypertext.Schema

def allowTags (s : Schema) (tags : List String) : Schema := tags.foldl allowTag s

theorem allowTags_eq (s : Schema) (tags : List String) :
    s.allowTags tags = { s with tags := s.tags.insertAll tags } := by
  induction tags generalizing s with
  | nil => rfl
  | cons tag rest ih =>
      rw [allowTags, List.foldl_cons, ← allowTags, ih]
      rfl

theorem listsUnder_allowTags (s : Schema) (tags : List String) (key n : String) :
    (s.allowTags tags).ListsUnder key n ↔ s.ListsUnder key n := by
  rw [allowTags_eq]
  rfl

/-- A schema that also allows each attribute of a list on the tag before it. -/
def allowAttributes (s : Schema) (pairs : List (String × String)) : Schema :=
  pairs.foldl (fun s p => s.allowAttribute p.1 p.2) s

theorem allowAttributes_eq (s : Schema) (pairs : List (String × String)) :
    s.allowAttributes pairs = { s with attributes := (s.allowAttributes pairs).attributes } := by
  induction pairs generalizing s with
  | nil => rfl
  | cons p rest ih =>
      rw [allowAttributes, List.foldl_cons, ← allowAttributes, ih]
      rfl

theorem listsUnder_allowAttributes (s : Schema) (pairs : List (String × String))
    (key n : String) :
    (s.allowAttributes pairs).ListsUnder key n ↔ (key, n) ∈ pairs ∨ s.ListsUnder key n := by
  induction pairs generalizing s with
  | nil => simp [allowAttributes]
  | cons p rest ih =>
      have hrest := ih (s.allowAttribute p.1 p.2)
      rw [listsUnder_allowAttribute] at hrest
      rw [allowAttributes, List.foldl_cons, ← allowAttributes, hrest, List.mem_cons, or_assoc,
        or_left_comm]

end Hypertext.Schema

open Hypertext

namespace Additions

/-- The attributes to be allowed, each with its tag. -/
def pairs (a : Additions) : List (String × String) :=
  a.attributes.entries.flatMap fun e => e.2.map fun name => (e.1, name)

theorem mem_pairs (a : Additions) (tag name : String) :
    (tag, name) ∈ a.pairs ↔ ∃ names, (tag, names) ∈ a.attributes.entries ∧ name ∈ names := by
  simp only [pairs, List.mem_flatMap, List.mem_map, Prod.mk.injEq]
  constructor
  · rintro ⟨⟨_, names⟩, he, _, hname, rfl, rfl⟩
    exact ⟨names, he, hname⟩
  · rintro ⟨names, he, hname⟩
    exact ⟨(tag, names), he, name, hname, rfl, rfl⟩

theorem schema_eq (a : Additions) :
    a.schema = (Schema.github.allowTags a.tags).allowAttributes a.pairs := by
  rw [schema, Schema.allowTags, Schema.allowAttributes, pairs, List.foldl_flatMap]
  simp only [List.foldl_map]

theorem mem_schema_tags (a : Additions) (tag : String) :
    tag ∈ a.schema.tags.toList ↔ tag ∈ a.tags ∨ tag ∈ Schema.github.tags.toList := by
  rw [schema_eq, Schema.allowAttributes_eq, Schema.allowTags_eq, Names.mem_insertAll]

theorem listsUnder_schema (a : Additions) (key name : String) :
    a.schema.ListsUnder key name ↔ (key, name) ∈ a.pairs ∨ Schema.github.ListsUnder key name := by
  rw [schema_eq, Schema.listsUnder_allowAttributes, Schema.listsUnder_allowTags]

theorem schema_strip (a : Additions) : a.schema.strip = Schema.github.strip := by
  rw [schema_eq, Schema.allowAttributes_eq, Schema.allowTags_eq]

theorem schema_of_isEmpty {a : Additions} (h : a.isEmpty = true) : a.schema = .github := by
  simp only [isEmpty, Bool.and_eq_true, List.isEmpty_iff, List.all_eq_true] at h
  have hpairs : a.pairs = [] := by
    refine List.flatMap_eq_nil_iff.mpr fun e he => ?_
    rw [h.2 e he, List.map_nil]
  rw [schema_eq, hpairs, h.1]
  rfl

end Additions

theorem Config.schema?_sanitizing (c : Config) :
    c.sanitizing.schema? = if c.sanitize then some c.additions.schema else none := by
  unfold sanitizing
  cases c.sanitize with
  | false => rfl
  | true =>
      by_cases hempty : c.additions.isEmpty = true
      · simp [hempty, Additions.schema_of_isEmpty hempty, Render.Sanitizing.schema?]
      · simp [hempty, Render.Sanitizing.schema?]

end KeyedMarkup
