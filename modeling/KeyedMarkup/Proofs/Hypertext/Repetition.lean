import KeyedMarkup.Proofs.Hypertext.Extension

/-!
# Sanitizing again

A tree stays as it is under a schema exactly if it is a root and there is nothing to be done at
any node below it. Sanitizing by one schema and then by another that is like it otherwise is
sanitizing once by what both allow, although the second pass finds contents moved up and values
with prefixes; so the stricter of two schemas absorbs the other, whichever comes first.
-/

namespace KeyedMarkup.Hypertext

namespace Schema

variable (s : Schema)

def cleanEntry (tag : String) (e : String × Property) : Option (String × Property) :=
  if s.allowsAttribute tag e.1 && s.allowsValue e.1 e.2 then some (e.1, s.clobberValue e.1 e.2)
  else none

theorem entries_cleanProperties (tag : String) (ps : Properties) :
    (s.cleanProperties tag ps).entries = ps.entries.filterMap (s.cleanEntry tag) := by
  show (ps.entries.filter _).map _ = _
  rw [← List.filterMap_eq_filter, List.map_filterMap]
  congr 1
  funext e
  unfold cleanEntry
  split <;> simp_all [Option.guard]

/-- Whether the value of an attribute stays as it is: its addresses pass, and all texts have the
prefix where one is asked for. -/
def KeepsValue (name : String) (value : Property) : Prop :=
  (∀ t ∈ value.strings, s.allowsUrl name t = true) ∧
    (name ∈ s.clobber.toList → ∀ t ∈ value.strings, s.clobberPrefix.toList <+: t.toList)

theorem clobbered_eq_self_iff (t : String) :
    s.clobbered t = t ↔ s.clobberPrefix.toList <+: t.toList := by
  constructor
  · intro h
    rw [← h]
    exact s.prefix_clobbered t
  · intro h
    rw [clobbered, if_pos (List.isPrefixOf_iff_prefix.mpr h)]

theorem clobbered_clobbered (t : String) : s.clobbered (s.clobbered t) = s.clobbered t :=
  (s.clobbered_eq_self_iff _).mpr (s.prefix_clobbered t)

theorem clobberValue_clobberValue (name : String) (value : Property) :
    s.clobberValue name (s.clobberValue name value) = s.clobberValue name value := by
  by_cases hname : name ∈ s.clobber.toList
  · cases value <;> simp [clobberValue, hname, clobbered_clobbered]
  · rw [s.clobberValue_of_not_mem hname, s.clobberValue_of_not_mem hname]

theorem clobberValue_eq_self_iff (name : String) (value : Property) :
    s.clobberValue name value = value ↔
      (name ∈ s.clobber.toList → ∀ t ∈ value.strings, s.clobberPrefix.toList <+: t.toList) := by
  by_cases hname : name ∈ s.clobber.toList
  · cases value with
    | flag b => simp [clobberValue, Property.strings]
    | number x => simp [clobberValue, Property.strings]
    | text t => simp [clobberValue, Property.strings, hname, clobbered_eq_self_iff]
    | tokens ts =>
        have hmap := List.map_eq_map_iff (f := s.clobbered) (g := id) (l := ts)
        rw [List.map_id] at hmap
        simpa [clobberValue, Property.strings, hname, ← clobbered_eq_self_iff] using hmap
  · simp [s.clobberValue_of_not_mem hname, hname]

theorem cleanEntry_eq_self_iff (tag : String) (e : String × Property) :
    s.cleanEntry tag e = some e ↔ s.Lists tag e.1 ∧ s.KeepsValue e.1 e.2 := by
  obtain ⟨name, value⟩ := e
  unfold cleanEntry KeepsValue
  rw [← allowsAttribute_iff, ← allowsValue_iff, ← clobberValue_eq_self_iff]
  split <;> simp_all

private theorem filterMap_eq_self_iff {α : Type} {f : α → Option α} {xs : List α} :
    xs.filterMap f = xs ↔ ∀ x ∈ xs, f x = some x := by
  induction xs with
  | nil => simp
  | cons x xs ih =>
      cases hx : f x with
      | none =>
          have hlength := List.length_filterMap_le f xs
          have hne : xs.filterMap f ≠ x :: xs := by
            intro h
            rw [h, List.length_cons] at hlength
            omega
          simp [hx, hne]
      | some y => simp [hx, ih]

theorem cleanProperties_eq_self_iff (tag : String) (ps : Properties) :
    s.cleanProperties tag ps = ps ↔
      ∀ name value, (name, value) ∈ ps.entries → s.Lists tag name ∧ s.KeepsValue name value := by
  rw [Dict.ext_iff, entries_cleanProperties, filterMap_eq_self_iff, Prod.forall]
  simp only [cleanEntry_eq_self_iff]

/-- Whether a node stays as it is, its children apart. -/
def Keeps : Node → Prop
  | .root _ | .raw _ => False
  | .text _ => True
  | .element e =>
      e.tag ∈ s.tags.toList ∧ e.tag ∉ s.strip.toList ∧
        ∀ name value, (name, value) ∈ e.properties.entries →
          s.Lists e.tag name ∧ s.KeepsValue name value

end Schema

namespace Node

variable (s : Schema)

theorem clean_element_of_allowed {e : Element} (htag : e.tag ∈ s.tags.toList)
    (hstrip : e.tag ∉ s.strip.toList) :
    clean s (.element e) =
      [.element ⟨e.tag, s.cleanProperties e.tag e.properties, cleanAll s e.children, e.kind⟩] := by
  obtain ⟨tag, properties, children, kind⟩ := e
  rw [clean, if_neg (by simpa using hstrip), if_pos (by simpa using htag)]

mutual

theorem clean_eq_of_keeps (n : Node) (h : ∀ m ∈ n.nodes, s.Keeps m) : clean s n = [n] := by
  cases n with
  | root children => exact absurd (h (.root children) (by simp [nodes])) id
  | raw value => exact absurd (h (.raw value) (by simp [nodes])) id
  | text value => rfl
  | element e =>
      obtain ⟨tag, properties, children, kind⟩ := e
      rw [nodes, List.forall_mem_cons] at h
      obtain ⟨⟨htag, hstrip, hproperties⟩, hchildren⟩ := h
      rw [clean_element_of_allowed s htag hstrip, cleanAll_eq_of_keeps children hchildren,
        (s.cleanProperties_eq_self_iff _ _).mpr hproperties]

theorem cleanAll_eq_of_keeps (ns : List Node) (h : ∀ m ∈ nodesOfAll ns, s.Keeps m) :
    cleanAll s ns = ns := by
  cases ns with
  | nil => rfl
  | cons n rest =>
      rw [nodesOfAll, List.forall_mem_append] at h
      rw [cleanAll, clean_eq_of_keeps n h.1, cleanAll_eq_of_keeps rest h.2]
      rfl

end

mutual

/-- What remains of a permitted node is one node, and nothing is done below it if it is the same. -/
theorem keeps_of_clean (n : Node) (hpermits : ∀ m ∈ n.nodes, s.Permits m) :
    ∃ n', clean s n = [n'] ∧ (n' = n → ∀ m ∈ n.nodes, s.Keeps m) := by
  cases n with
  | root children => exact absurd (hpermits (.root children) (by simp [nodes])) id
  | raw value => exact absurd (hpermits (.raw value) (by simp [nodes])) id
  | text value => exact ⟨.text value, rfl, fun _ => by simp [nodes, Schema.Keeps]⟩
  | element e =>
      obtain ⟨tag, properties, children, kind⟩ := e
      rw [nodes, List.forall_mem_cons] at hpermits
      obtain ⟨⟨htag, hstrip, _⟩, hchildren⟩ := hpermits
      refine ⟨_, clean_element_of_allowed s htag hstrip, fun hsame => ?_⟩
      simp only [element.injEq, Element.mk.injEq, true_and, and_true] at hsame
      obtain ⟨hproperties, hcontent⟩ := hsame
      rw [nodes, List.forall_mem_cons]
      exact ⟨⟨htag, hstrip, (s.cleanProperties_eq_self_iff _ _).mp hproperties⟩,
        keeps_of_cleanAll children hchildren hcontent⟩

theorem keeps_of_cleanAll (ns : List Node) (hpermits : ∀ m ∈ nodesOfAll ns, s.Permits m)
    (hsame : cleanAll s ns = ns) : ∀ m ∈ nodesOfAll ns, s.Keeps m := by
  cases ns with
  | nil => simp [nodesOfAll]
  | cons n rest =>
      rw [nodesOfAll, List.forall_mem_append] at hpermits
      obtain ⟨n', hn, hkeeps⟩ := keeps_of_clean n hpermits.1
      rw [cleanAll, hn, List.singleton_append] at hsame
      obtain ⟨hhead, hrest⟩ := List.cons.inj hsame
      rw [nodesOfAll, List.forall_mem_append]
      exact ⟨hkeeps hhead, keeps_of_cleanAll rest hpermits.2 hrest⟩

end

/-- Sanitizing leaves a tree alone exactly if it is a root and every node below it stays. -/
theorem sanitize_eq_self_iff (h : Node) :
    h.sanitize s = h ↔ (∃ children, h = .root children) ∧ ∀ m ∈ h.descendants, s.Keeps m := by
  constructor
  · intro hsame
    obtain ⟨children, rfl⟩ : ∃ children, h = .root children := ⟨_, hsame.symm⟩
    have hclean : cleanAll s children = children := by simpa [sanitize, clean] using hsame
    refine ⟨⟨children, rfl⟩, keeps_of_cleanAll s children ?_ hclean⟩
    -- Nothing but permitted nodes can come out, so there were only such nodes before.
    have hpermitted := cleanAll_permitted s children
    rwa [hclean] at hpermitted
  · rintro ⟨⟨children, rfl⟩, hkeeps⟩
    rw [sanitize, clean, cleanAll_eq_of_keeps s children hkeeps]

end Node

namespace Schema

/-- Whether the third schema allows what the first two both allow, all being alike otherwise. -/
structure Meet (s t u : Schema) : Prop where
  left : s.Alike u
  right : t.Alike u
  tags : ∀ tag, tag ∈ u.tags.toList ↔ tag ∈ s.tags.toList ∧ tag ∈ t.tags.toList
  attributes : ∀ tag name, u.Lists tag name ↔ s.Lists tag name ∧ t.Lists tag name

variable {s t u : Schema}

theorem Within.meet_left (h : s.Within t) : Meet s t s where
  left := .refl s
  right := h.alike.symm
  tags := fun tag => ⟨fun htag => ⟨htag, h.tags tag htag⟩, And.left⟩
  attributes := fun tag name => ⟨fun hl => ⟨hl, h.attributes tag name hl⟩, And.left⟩

theorem Meet.swap (h : Meet s t u) : Meet t s u where
  left := h.right
  right := h.left
  tags := fun tag => (h.tags tag).trans And.comm
  attributes := fun tag name => (h.attributes tag name).trans And.comm

theorem Alike.allowsValue_eq (h : s.Alike t) : s.allowsValue = t.allowsValue := by
  have hurl : s.allowsUrl = t.allowsUrl := by
    funext name url
    simp only [allowsUrl, h.protocols]
  funext name value
  unfold allowsValue
  rw [hurl]

theorem Alike.clobberValue_eq (h : s.Alike t) : s.clobberValue = t.clobberValue := by
  have hclobbered : s.clobbered = t.clobbered := by
    funext text
    simp only [clobbered, h.clobberPrefix]
  funext name value
  simp only [clobberValue, h.clobber, hclobbered]

/-- A prefix never changes what the check of the addresses says. -/
theorem allowsValue_clobberValue (h : s.ClobbersNoAddress) (name : String) (value : Property) :
    s.allowsValue name (s.clobberValue name value) = s.allowsValue name value := by
  by_cases hname : name ∈ s.clobber.toList
  · have hunchecked (v : Property) : s.allowsValue name v = true := by
      rw [allowsValue_iff]
      intro text _
      rw [allowsUrl, h name hname]
    rw [hunchecked, hunchecked]
  · rw [s.clobberValue_of_not_mem hname]

-- Where addresses get a prefix, the second pass takes away what the first one kept.
example :
    let s : Schema := ⟨.ofList ["a"], .ofList [("a", .ofList ["href"])],
      .ofList [("href", .ofList ["http"])], .empty, .ofList ["href"], "user:"⟩
    let once := s.cleanProperties "a" (.ofList [("href", .text "http://example.org")])
    once.names = ["href"] ∧ (s.cleanProperties "a" once).names = [] := by
  decide +kernel

theorem cleanEntry_cleanEntry (h : Meet s t u) (hapart : u.ClobbersNoAddress) (tag : String)
    (e : String × Property) : (s.cleanEntry tag e).bind (t.cleanEntry tag) = u.cleanEntry tag e := by
  obtain ⟨name, value⟩ := e
  have hlisted : u.allowsAttribute tag name =
      (s.allowsAttribute tag name && t.allowsAttribute tag name) := by
    rw [Bool.eq_iff_iff, Bool.and_eq_true]
    simp only [allowsAttribute_iff]
    exact h.attributes tag name
  have hvalue := u.clobberValue_clobberValue name value
  have hallowed := allowsValue_clobberValue hapart name value
  unfold cleanEntry
  rw [h.left.allowsValue_eq, h.left.clobberValue_eq, h.right.allowsValue_eq,
    h.right.clobberValue_eq, hlisted]
  cases hv : u.allowsValue name value with
  | false => simp
  | true =>
      cases hs : s.allowsAttribute tag name with
      | false => simp
      | true => simp [hallowed, hvalue, hv]

theorem cleanProperties_cleanProperties (h : Meet s t u) (hapart : u.ClobbersNoAddress)
    (tag : String) (ps : Properties) :
    t.cleanProperties tag (s.cleanProperties tag ps) = u.cleanProperties tag ps := by
  apply Dict.ext
  rw [entries_cleanProperties, entries_cleanProperties, entries_cleanProperties,
    List.filterMap_filterMap]
  congr 1
  funext e
  exact cleanEntry_cleanEntry h hapart tag e

end Schema

namespace Node

variable {s t u : Schema}

mutual

theorem cleanAll_clean (h : Schema.Meet s t u) (hapart : u.ClobbersNoAddress) (n : Node) :
    cleanAll t (clean s n) = clean u n := by
  cases n with
  | root children => exact cleanAll_cleanAll h hapart children
  | text value => rfl
  | raw value => rfl
  | element e =>
      obtain ⟨tag, properties, children, kind⟩ := e
      have hchildren := cleanAll_cleanAll h hapart children
      have hstrip : u.strip.contains tag = s.strip.contains tag := by rw [h.left.strip]
      have hstrip' : t.strip.contains tag = s.strip.contains tag := by
        rw [h.right.strip, h.left.strip]
      have htags : u.tags.contains tag = (s.tags.contains tag && t.tags.contains tag) := by
        rw [Bool.eq_iff_iff, Bool.and_eq_true]
        simp only [Names.contains_iff]
        exact h.tags tag
      rw [clean, clean, hstrip, htags]
      by_cases hstripped : s.strip.contains tag = true
      · rw [if_pos hstripped, if_pos hstripped]
        rfl
      · rw [if_neg hstripped, if_neg hstripped]
        by_cases hkept : s.tags.contains tag = true
        · -- The element goes into the second pass, which keeps it or moves its content up.
          rw [if_pos hkept, hkept, Bool.true_and, cleanAll_singleton, clean, hstrip',
            if_neg hstripped, hchildren, Schema.cleanProperties_cleanProperties h hapart]
        · rw [if_neg hkept, if_neg (by simp [hkept]), hchildren]

theorem cleanAll_cleanAll (h : Schema.Meet s t u) (hapart : u.ClobbersNoAddress)
    (ns : List Node) : cleanAll t (cleanAll s ns) = cleanAll u ns := by
  cases ns with
  | nil => rfl
  | cons n rest =>
      rw [cleanAll, cleanAll_append, cleanAll_clean h hapart n, cleanAll_cleanAll h hapart rest]
      rfl

end

theorem sanitize_sanitize (h : Schema.Meet s t u) (hapart : u.ClobbersNoAddress) (n : Node) :
    (n.sanitize s).sanitize t = n.sanitize u := by
  rw [sanitize, sanitize, sanitize, clean, cleanAll_clean h hapart]

/-- The stricter of two schemas absorbs the other, before or after it, if no attribute both gets a
prefix and has its addresses checked; and this is so in GitHub's schema and all that extend it. -/
theorem sanitize_absorbs :
    (∀ s : Schema, s.ExtendsGithub → s.ClobbersNoAddress) ∧
    ∀ s₁ s₂ : Schema, s₁.Within s₂ → s₁.ClobbersNoAddress → ∀ h : Node,
      (h.sanitize s₂).sanitize s₁ = h.sanitize s₁ ∧
        (h.sanitize s₁).sanitize s₂ = h.sanitize s₁ := by
  refine ⟨fun s hs => hs.clobbersNoAddress, ?_⟩
  intro s₁ s₂ hwithin hapart h
  constructor
  · exact sanitize_sanitize hwithin.meet_left.swap hapart h
  · exact sanitize_sanitize hwithin.meet_left hapart h

def sectionSchema : Schema := (Schema.github.allowTag "section").allowAttribute "section" "class"

/-- A section in a nested root, with a prefix to be written, a script and a link. -/
def nestedSection : Node :=
  .root [.root [.element ⟨"section",
    .ofList [("class", .text "wide"), ("id", .tokens ["top", "user-content-a"])],
    [.element ⟨"script", .empty, [.text "alert"], none⟩,
      .element ⟨"a", .ofList [("href", .text "javascript:x"), ("name", .text "b")], [.raw "<b>"],
        some .link⟩], none⟩]]

theorem sanitize_absorbs_sectionSchema :
    Schema.github.Within sectionSchema ∧ Schema.github.ClobbersNoAddress ∧
      (nestedSection.sanitize sectionSchema).sanitize .github = nestedSection.sanitize .github ∧
      (nestedSection.sanitize .github).sanitize sectionSchema =
        nestedSection.sanitize .github := by
  have hextends : sectionSchema.ExtendsGithub :=
    .allowAttribute "section" "class" (.allowTag "section" .github)
  have hapart : Schema.github.ClobbersNoAddress := sanitize_absorbs.1 _ .github
  exact ⟨hextends.within, hapart, sanitize_absorbs.2 _ _ hextends.within hapart nestedSection⟩

end Node

end KeyedMarkup.Hypertext
