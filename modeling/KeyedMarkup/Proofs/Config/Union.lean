import KeyedMarkup.Proofs.Config.Additions
import KeyedMarkup.Proofs.Hypertext.Repetition

/-!
# A configured schema is a union

The schema of a configuration allows what GitHub's schema allows and what the configuration lists,
tag by tag and attribute by attribute, and is GitHub's otherwise. All schemas of which this is true
sanitize alike. So neither the order of a configuration nor what it lists twice matters, nor
whether GitHub's schema is taken as it stands where nothing is added to it.
-/

namespace KeyedMarkup

open Hypertext

/-- Schemas that allow the same sanitize alike: each of them absorbs the other. -/
theorem Hypertext.Node.sanitize_congr {s t : Schema} (h : s.Within t) (h' : t.Within s)
    (hapart : s.ClobbersNoAddress) (n : Node) : n.sanitize s = n.sanitize t := by
  have hapart' : t.ClobbersNoAddress := hapart.of_alike h'.alike
  calc
    n.sanitize s = (n.sanitize s).sanitize t := (sanitize_sanitize h.meet_left hapart n).symm
    _ = n.sanitize t := sanitize_sanitize h'.meet_left.swap hapart' n

namespace Additions

/-- Whether a schema allows what GitHub's schema allows or the additions list, and nothing else. -/
structure Unites (a : Additions) (s : Schema) : Prop where
  tags : ∀ tag, tag ∈ s.tags.toList ↔ tag ∈ Schema.github.tags.toList ∨ tag ∈ a.tags
  attributes : ∀ key name,
    s.ListsUnder key name ↔ Schema.github.ListsUnder key name ∨ (key, name) ∈ a.pairs
  alike : s.Alike .github

/-- Whether two additions list the same, in whatever order and however often. -/
structure Same (a b : Additions) : Prop where
  tags : ∀ tag, tag ∈ a.tags ↔ tag ∈ b.tags
  pairs : ∀ key name, (key, name) ∈ a.pairs ↔ (key, name) ∈ b.pairs

theorem alike_schema (a : Additions) : a.schema.Alike .github := by
  rw [schema_eq, Schema.allowAttributes_eq, Schema.allowTags_eq]
  exact ⟨rfl, rfl, rfl, rfl⟩

theorem unites_schema (a : Additions) : a.Unites a.schema where
  tags := fun tag => (a.mem_schema_tags tag).trans Or.comm
  attributes := fun key name => (a.listsUnder_schema key name).trans Or.comm
  alike := a.alike_schema

variable {a b : Additions} {s t : Schema}

theorem Unites.of_same (h : a.Unites s) (hsame : b.Same a) : b.Unites s where
  tags := fun tag => by rw [h.tags, hsame.tags]
  attributes := fun key name => by rw [h.attributes, hsame.pairs]
  alike := h.alike

theorem Unites.within (hs : a.Unites s) (ht : a.Unites t) : s.Within t where
  alike := hs.alike.trans ht.alike.symm
  tags := fun tag h => (ht.tags tag).mpr ((hs.tags tag).mp h)
  attributes := by
    have hunder (key name : String) (h : s.ListsUnder key name) : t.ListsUnder key name :=
      (ht.attributes key name).mpr ((hs.attributes key name).mp h)
    exact fun tag name h => h.imp (hunder tag name) (hunder Schema.anyTag name)

theorem Unites.sanitize_eq (hs : a.Unites s) (ht : a.Unites t) (n : Node) :
    n.sanitize s = n.sanitize t :=
  Node.sanitize_congr (hs.within ht) (ht.within hs)
    (Schema.clobbersNoAddress_github.of_alike hs.alike) n

/-- A tag that is listed without attributes adds nothing. -/
theorem isEmpty_iff (a : Additions) : a.isEmpty = true ↔ a.tags = [] ∧ a.pairs = [] := by
  simp [isEmpty, pairs]

end Additions

namespace Config

theorem sanitizing_eq_enabled_iff {c : Config} (hsanitize : c.sanitize = true) :
    c.sanitizing = .enabled ↔ c.additions.tags = [] ∧ c.additions.pairs = [] := by
  rw [← Additions.isEmpty_iff, sanitizing, hsanitize]
  cases c.additions.isEmpty <;> simp

/-- A configuration sanitizes by the union of GitHub's schema and its additions, and by any other
schema that is this union. -/
theorem prepare_of_unites (c : Config) (hsanitize : c.sanitize = true) (tree : Doc.Node)
    (o : ConvertOptions) :
    c.additions.Unites c.additions.schema ∧
      (∀ s, c.additions.Unites s →
        Render.prepare tree c.sanitizing o = (ofDoc o tree).sanitize s) ∧
      (∀ c' : Config, c'.sanitize = true → c'.additions.Same c.additions →
        Render.prepare tree c'.sanitizing o = Render.prepare tree c.sanitizing o) ∧
      (c.sanitizing = .enabled ↔ c.additions.tags = [] ∧ c.additions.pairs = []) ∧
      Render.prepare tree c.sanitizing o =
        Render.prepare tree (.schema c.additions.schema) o := by
  have hprepare (d : Config) (hd : d.sanitize = true) :
      Render.prepare tree d.sanitizing o = (ofDoc o tree).sanitize d.additions.schema := by
    rw [Render.prepare, schema?_sanitizing, if_pos hd]
  have hunion := c.additions.unites_schema
  refine ⟨hunion, fun s hs => ?_, fun c' hc' hsame => ?_,
    sanitizing_eq_enabled_iff hsanitize, hprepare c hsanitize⟩
  · rw [hprepare c hsanitize, hunion.sanitize_eq hs]
  · have hunion' : c.additions.Unites c'.additions.schema :=
      c'.additions.unites_schema.of_same ⟨fun tag => (hsame.tags tag).symm,
        fun key name => (hsame.pairs key name).symm⟩
    rw [hprepare c hsanitize, hprepare c' hc', hunion'.sanitize_eq hunion]

def repetitive : Config where
  additions := ⟨["section", "mark", "section"],
    .ofList [("code", ["class", "class"]), ("*", ["data-line"]), ("section", [])]⟩

def concise : Config where
  additions := ⟨["mark", "section"], .ofList [("*", ["data-line"]), ("code", ["class"])]⟩

/-- A section with a code block, whose class only these additions let through. -/
def codeSection : Doc.Node :=
  .parent (.other "section") [⟨.code, .ofList [("lang", .text "lean")], some "rfl", []⟩]

theorem prepare_of_unites_codeSection :
    repetitive.sanitize = true ∧ concise.sanitize = true ∧
      concise.additions.Same repetitive.additions ∧
      Render.prepare codeSection concise.sanitizing {} =
        Render.prepare codeSection repetitive.sanitizing {} := by
  have htwice : repetitive.additions.pairs =
      [("*", "data-line"), ("code", "class"), ("code", "class")] := by
    decide +kernel
  have honce : concise.additions.pairs = [("*", "data-line"), ("code", "class")] := by
    decide +kernel
  have hsame : concise.additions.Same repetitive.additions := by
    constructor
    · intro tag
      simp only [concise, repetitive, List.mem_cons, List.not_mem_nil]
      grind
    · intro key name
      simp [htwice, honce]
  obtain ⟨_, _, hequal, _⟩ := prepare_of_unites repetitive rfl codeSection {}
  exact ⟨rfl, rfl, hsame, hequal concise rfl hsame⟩

end Config

end KeyedMarkup
