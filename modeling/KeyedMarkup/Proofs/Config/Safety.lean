import KeyedMarkup.Proofs.Config.Additions
import KeyedMarkup.Proofs.Keyed.Tags
import KeyedMarkup.Proofs.Render.Plain

/-!
# The tags that a document can get into its markup

Whatever a document holds, its sanitized markup opens and closes only elements that GitHub's schema
or the configuration allows. Scripts and style sheets stay out even where a configuration lists
them, since what is stripped goes first.
-/

namespace KeyedMarkup

open Hypertext Keyed.Markup

theorem Hypertext.Schema.isPlain_github_tags : ∀ tag ∈ github.tags.toList, IsPlain tag := by
  decide +kernel

theorem Hypertext.Schema.isPlain_github_attributes :
    ∀ e ∈ github.attributes.entries, ∀ name ∈ e.2.toList, IsPlain name := by
  decide +kernel

theorem Hypertext.Schema.uses_of_permits {s : Schema} {tags attributes : String → Prop}
    (htags : ∀ tag ∈ s.tags.toList, tag ∉ s.strip.toList → tags tag)
    (hattributes : ∀ key name, s.ListsUnder key name → attributes name) {n : Node}
    (h : s.Permits n) : n.Uses tags attributes := by
  cases n with
  | root children => exact h.elim
  | raw value => exact h.elim
  | text value => trivial
  | element e =>
      obtain ⟨htag, hstrip, hproperties⟩ := h
      refine ⟨htags _ htag hstrip, fun p hp => ?_⟩
      rcases (hproperties p.1 p.2 hp).1 with hlisted | hlisted
      · exact hattributes _ _ hlisted
      · exact hattributes _ _ hlisted

namespace Config

variable (c : Config)

def AllowsTag (tag : String) : Prop :=
  (tag ∈ Schema.github.tags.toList ∨ tag ∈ c.additions.tags) ∧ tag ≠ "script" ∧ tag ≠ "style"

theorem allowsTag_iff (tag : String) :
    c.AllowsTag tag ↔
      tag ∈ c.additions.schema.tags.toList ∧ tag ∉ c.additions.schema.strip.toList := by
  rw [AllowsTag, Additions.mem_schema_tags, Additions.schema_strip, Or.comm]
  simp [Schema.github]

theorem isPlain_renderOptions : c.renderOptions.IsPlain := ⟨rfl, rfl⟩

theorem prepare_renderOptions (hsanitize : c.sanitize = true) (tree : Doc.Node) :
    Render.prepare tree c.renderOptions.sanitizing c.renderOptions.convert =
      (ofDoc c.renderOptions.convert tree).sanitize c.additions.schema := by
  have hschema : c.renderOptions.sanitizing.schema? = some c.additions.schema := by
    rw [renderOptions, schema?_sanitizing, if_pos hsanitize]
  rw [Render.prepare, hschema]

variable {c}

theorem isPlain_of_allowsTag (h : ∀ tag ∈ c.additions.tags, IsPlain tag) {tag : String}
    (htag : c.AllowsTag tag) : IsPlain tag := by
  rcases htag.1 with htag | htag
  · exact Schema.isPlain_github_tags tag htag
  · exact h tag htag

theorem isPlain_of_listsUnder
    (h : ∀ e ∈ c.additions.attributes.entries, ∀ name ∈ e.2, IsPlain name) {key name : String}
    (hlisted : c.additions.schema.ListsUnder key name) : IsPlain name := by
  rcases (Additions.listsUnder_schema _ _ _).mp hlisted with hpair | ⟨names, hentry, hname⟩
  · obtain ⟨names, hentry, hname⟩ := (Additions.mem_pairs _ _ _).mp hpair
    exact h _ hentry name hname
  · exact Schema.isPlain_github_attributes _ (Dict.mem_entries_of_get? hentry) name hname

/-- In the markup of a sanitized document every `<` belongs to a tag that is allowed. -/
theorem opensOnly_of_render (hsanitize : c.sanitize = true)
    (htags : ∀ tag ∈ c.additions.tags, IsPlain tag)
    (hattributes : ∀ e ∈ c.additions.attributes.entries, ∀ name ∈ e.2, IsPlain name)
    {tree : Doc.Node} {e : Keyed.Element}
    (he : (Render.render c.renderOptions tree).outcome = .ok e) :
    OpensOnly c.AllowsTag e.markup.toList := by
  have hcontainer : c.AllowsTag Render.containerTag :=
    ⟨.inl (by decide +kernel), by decide, by decide⟩
  have hcopy := Render.eq_keyed_of_render c.isPlain_renderOptions he
  rw [c.prepare_renderOptions hsanitize, Node.sanitize, Node.rootChildren] at hcopy
  have huses : ∀ m ∈ (Node.root (Node.clean c.additions.schema
      (ofDoc c.renderOptions.convert tree))).nodes, m.Uses c.AllowsTag IsPlain := by
    rw [Node.nodes, List.forall_mem_cons]
    refine ⟨hcontainer, fun m hm => ?_⟩
    exact Schema.uses_of_permits
      (fun tag htag hstrip => (c.allowsTag_iff tag).mpr ⟨htag, hstrip⟩)
      (fun _ _ => isPlain_of_listsUnder hattributes) (Node.clean_permitted _ _ m hm)
  have hrendered := Render.uses_keyed c.renderOptions.keyPrefix _ [] huses
  rw [← hcopy] at hrendered
  exact Keyed.opensOnly_markup (fun _ => isPlain_of_allowsTag htags) (.element e) hrendered

def scripted : Config where
  allowDangerousHtml := true
  additions := ⟨["section", "script"], .ofList [("section", ["data-note"])]⟩

def scriptedSection : Doc.Node :=
  ⟨.other "section", .ofList [("data-note", .text "<b>")], none,
    [.parent (.other "script") [.leaf .text "alert"], .leaf .html "<b>", .leaf .text "1 < 2"]⟩

theorem opensOnly_scriptedSection :
    ∃ e, (Render.render scripted.renderOptions scriptedSection).outcome = .ok e ∧
      OpensOnly scripted.AllowsTag e.markup.toList := by
  have hlevels : Render.levels scriptedSection = 3 := by
    simp [Render.levels, scriptedSection, Doc.Node.depth, Doc.Node.deepest, Doc.Node.parent,
      Doc.Node.leaf]
  have hdepth : ¬ scripted.renderOptions.maxDepth < Render.levels scriptedSection := by
    rw [hlevels]
    decide
  have he : (Render.render scripted.renderOptions scriptedSection).outcome =
      .ok ⟨"div", some "h", .empty, [.element ⟨"section", some "h-0",
        .ofList [("data-note", .text "<b>")], [.text "1 < 2"]⟩]⟩ := by
    rw [Render.render, Render.Options.prepare, if_neg hdepth]
    with_unfolding_all rfl
  exact ⟨_, he, opensOnly_of_render rfl (by decide +kernel) (by decide +kernel) he⟩

end Config

end KeyedMarkup
