import KeyedMarkup.Proofs.Hypertext.Permission

/-!
# Schemas that allow more

One schema is within another if it allows no more tags and attributes and what is stripped,
checked or given a prefix is the same in both. Allowing a tag or an attribute leads to such a
schema, and so does any number of these steps.
-/

namespace KeyedMarkup.Hypertext.Schema

/-- Whether two schemas differ in nothing but the tags and attributes that they allow. -/
structure Alike (s t : Schema) : Prop where
  protocols : s.protocols = t.protocols
  strip : s.strip = t.strip
  clobber : s.clobber = t.clobber
  clobberPrefix : s.clobberPrefix = t.clobberPrefix

theorem Alike.refl (s : Schema) : s.Alike s := ⟨rfl, rfl, rfl, rfl⟩

theorem Alike.symm {s t : Schema} (h : s.Alike t) : t.Alike s :=
  ⟨h.protocols.symm, h.strip.symm, h.clobber.symm, h.clobberPrefix.symm⟩

theorem Alike.trans {s t u : Schema} (h : s.Alike t) (h' : t.Alike u) : s.Alike u :=
  ⟨h.protocols.trans h'.protocols, h.strip.trans h'.strip, h.clobber.trans h'.clobber,
    h.clobberPrefix.trans h'.clobberPrefix⟩

/-- Whether a schema allows no more than another one that is like it otherwise. -/
structure Within (s t : Schema) : Prop where
  alike : s.Alike t
  tags : ∀ tag ∈ s.tags.toList, tag ∈ t.tags.toList
  attributes : ∀ tag name, s.Lists tag name → t.Lists tag name

/-- Whether no attribute whose values get a prefix has its addresses checked. -/
def ClobbersNoAddress (s : Schema) : Prop :=
  ∀ name ∈ s.clobber.toList, s.protocols.get? name = none

theorem ClobbersNoAddress.of_alike {s t : Schema} (h : s.ClobbersNoAddress) (halike : t.Alike s) :
    t.ClobbersNoAddress := by
  intro name hname
  rw [halike.clobber] at hname
  rw [halike.protocols]
  exact h name hname

theorem listsUnder_allowAttribute (s : Schema) (tag name key n : String) :
    (s.allowAttribute tag name).ListsUnder key n ↔
      (key, n) = (tag, name) ∨ s.ListsUnder key n := by
  unfold ListsUnder allowAttribute
  simp only [Dict.get?_insert]
  by_cases hkey : key = tag
  · subst hkey
    cases s.attributes.get? key <;> simp [Names.empty]
  · simp [hkey]

theorem within_allowTag (s : Schema) (tag : String) : s.Within (s.allowTag tag) where
  alike := ⟨rfl, rfl, rfl, rfl⟩
  tags := fun t ht => by simpa [allowTag] using Or.inr ht
  attributes := fun _ _ h => h

theorem within_allowAttribute (s : Schema) (tag name : String) :
    s.Within (s.allowAttribute tag name) where
  alike := ⟨rfl, rfl, rfl, rfl⟩
  tags := fun _ ht => ht
  attributes := by
    intro t n h
    rcases h with h | h
    · exact .inl ((listsUnder_allowAttribute s tag name t n).mpr (.inr h))
    · exact .inr ((listsUnder_allowAttribute s tag name anyTag n).mpr (.inr h))

theorem Within.trans {s t u : Schema} (h : s.Within t) (h' : t.Within u) : s.Within u where
  alike := h.alike.trans h'.alike
  tags := fun tag ht => h'.tags tag (h.tags tag ht)
  attributes := fun tag name hl => h'.attributes tag name (h.attributes tag name hl)

/-- The schemas made from GitHub's by allowing more tags and attributes. -/
inductive ExtendsGithub : Schema → Prop
  | github : ExtendsGithub github
  | allowTag {s : Schema} (tag : String) : ExtendsGithub s → ExtendsGithub (s.allowTag tag)
  | allowAttribute {s : Schema} (tag name : String) :
      ExtendsGithub s → ExtendsGithub (s.allowAttribute tag name)

theorem ExtendsGithub.within {s : Schema} (h : s.ExtendsGithub) : Schema.github.Within s := by
  induction h with
  | github => exact ⟨.refl _, fun _ ht => ht, fun _ _ hl => hl⟩
  | allowTag tag _ ih => exact ih.trans (within_allowTag _ tag)
  | allowAttribute tag name _ ih => exact ih.trans (within_allowAttribute _ tag name)

theorem clobbersNoAddress_github : Schema.github.ClobbersNoAddress := by
  unfold ClobbersNoAddress
  decide +kernel

theorem ExtendsGithub.clobbersNoAddress {s : Schema} (h : s.ExtendsGithub) :
    s.ClobbersNoAddress :=
  clobbersNoAddress_github.of_alike h.within.alike.symm

end KeyedMarkup.Hypertext.Schema
