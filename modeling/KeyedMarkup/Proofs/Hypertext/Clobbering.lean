import KeyedMarkup.Proofs.Hypertext.Repetition
import KeyedMarkup.Proofs.Keyed.Numbers

/-!
# Prefixes in the markup

In GitHub's schema, and in all that extend it, the values of `id` and `name` get a prefix, so that
a document cannot take over the names of the page around it. What counts is the text that gets
into the markup: a list of tokens, which is joined, and a text start with the prefix there, while
a flag has no text. A number is written as it is, without the prefix.
-/

namespace KeyedMarkup

namespace Keyed.Markup

theorem attributeText_eq_iff {name written : String} {value : Property} :
    attributeText name value = " " ++ name ++ "=\"" ++ written ++ "\"" ↔
      (valueText value).map escape = some written := by
  unfold attributeText
  cases valueText value with
  | none =>
      have hempty : "" ≠ " " ++ name ++ "=\"" ++ written ++ "\"" := by
        intro h
        have hchars := congrArg String.toList h
        simp at hchars
      exact ⟨fun h => absurd h hempty, nofun⟩
  | some text =>
      rw [Option.map_some, Option.some.injEq]
      constructor
      · intro h
        have hchars := congrArg String.toList h
        simp only [String.toList_append, List.append_cancel_left_eq,
          List.append_cancel_right_eq] at hchars
        exact String.toList_injective hchars
      · rintro rfl
        rfl

variable {p : List Char}

theorem prefix_intercalate {separator t : String} (h : p <+: t.toList) (ts : List String) :
    p <+: (separator.intercalate (t :: ts)).toList := by
  rw [String.toList_intercalate]
  cases ts with
  | nil => simpa using h
  | cons u us =>
      refine h.trans ?_
      rw [List.map_cons, List.map_cons, List.intercalate_cons_cons, List.append_assoc]
      exact List.prefix_append _ _

/-- If all texts of a value start alike, then so does what is written for it, if that is a text. -/
theorem prefix_of_valueText {value : Property} {text : String}
    (h : ∀ t ∈ value.strings, p <+: t.toList) (hnumber : ∀ x, value ≠ .number x)
    (htext : valueText value = some text) (hne : text ≠ "") : p <+: text.toList := by
  cases value with
  | flag set =>
      cases set with
      | false => cases htext
      | true => exact absurd (Option.some.inj htext).symm hne
  | number x => exact absurd rfl (hnumber x)
  | text t =>
      obtain rfl := Option.some.inj htext
      exact h t List.mem_cons_self
  | tokens ts =>
      cases ts with
      | nil => cases htext
      | cons t ts =>
          obtain rfl := Option.some.inj htext
          exact prefix_intercalate (h t List.mem_cons_self) ts

theorem prefix_escape {s : String} (hp : ∀ c ∈ p, c ∉ escaped) (h : p <+: s.toList) :
    p <+: (escape s).toList := by
  obtain ⟨rest, hrest⟩ := h
  have hkept : escape (String.ofList p) = String.ofList p := escape_eq_self (by simpa using hp)
  have hsplit : s = String.ofList p ++ String.ofList rest := by
    apply String.toList_injective
    simp [hrest]
  rw [hsplit, escape_append, hkept, String.toList_append, String.toList_ofList]
  exact List.prefix_append _ _

end Keyed.Markup

namespace Hypertext

open Keyed.Markup

variable {s : Schema}

theorem Schema.ExtendsGithub.mem_clobber_iff (hs : s.ExtendsGithub) {name : String} :
    name ∈ s.clobber.toList ↔ name = "id" ∨ name = "name" := by
  rw [← hs.within.alike.clobber]
  simp [Schema.github]

theorem Schema.ExtendsGithub.clobberPrefix_eq (hs : s.ExtendsGithub) :
    s.clobberPrefix = "user-content-" :=
  hs.within.alike.clobberPrefix.symm

namespace Node

/-- What is written for the `id` or `name` of a sanitized element, if it is not empty, starts with
the prefix exactly if the value is not a number. -/
theorem prefix_written_iff (hs : s.ExtendsGithub) (h : Node) {e : Element}
    (he : .element e ∈ (h.sanitize s).descendants) {name : String} {value : Property}
    (hvalue : (name, value) ∈ e.properties.entries) (hname : name = "id" ∨ name = "name")
    {written : String}
    (hwritten : attributeText name value = " " ++ name ++ "=\"" ++ written ++ "\"")
    (hne : written ≠ "") :
    "user-content-".toList <+: written.toList ↔ ∀ x, value ≠ .number x := by
  obtain ⟨text, htext, rfl⟩ := Option.map_eq_some_iff.mp (attributeText_eq_iff.mp hwritten)
  constructor
  · rintro hstarts x rfl
    obtain rfl := Option.some.inj htext
    rw [escape_markupText] at hstarts
    have hchar := isNumberChar_markupText x 'u' (hstarts.subset (by decide))
    exact absurd hchar (by simp [IsNumberChar, numberMarks])
  · intro hnumber
    have htextne : text ≠ "" := by
      rintro rfl
      exact hne rfl
    have hstrings : ∀ t ∈ value.strings, "user-content-".toList <+: t.toList := by
      obtain ⟨_, _, hproperties⟩ := clean_permitted s h _ he
      rw [← hs.clobberPrefix_eq]
      exact (hproperties name value hvalue).2.2 (hs.mem_clobber_iff.mpr hname)
    exact prefix_escape (by simp [escaped]) (prefix_of_valueText hstrings hnumber htext htextne)

def namedContainer : Element :=
  ⟨"div", .ofList [("id", .tokens ["a&b", "user-content-c"]), ("name", .number (.ofNat 5))],
    [.text "x"], some (.other "div")⟩

def cleanContainer : Element :=
  { namedContainer with
    properties := .ofList [("id", .tokens ["user-content-a&b", "user-content-c"]),
      ("name", .number (.ofNat 5))] }

theorem mem_sanitize_namedContainer :
    .element cleanContainer ∈ (sanitize .github (.element namedContainer)).descendants := by
  have hproperties : Schema.github.cleanProperties "div" namedContainer.properties =
      cleanContainer.properties := by
    decide +kernel
  have hclean : clean .github (.element namedContainer) = [.element cleanContainer] := by
    rw [clean_element_of_allowed _ (by decide +kernel) (by decide +kernel),
      show namedContainer.tag = "div" from rfl, hproperties]
    rfl
  rw [sanitize, hclean]
  exact List.mem_cons_self

theorem prefix_written_namedContainer :
    ("id", .tokens ["user-content-a&b", "user-content-c"]) ∈ cleanContainer.properties.entries ∧
      attributeText "id" (.tokens ["user-content-a&b", "user-content-c"]) =
        " " ++ "id" ++ "=\"" ++ "user-content-a&amp;b user-content-c" ++ "\"" ∧
      "user-content-".toList <+: "user-content-a&amp;b user-content-c".toList := by
  have hvalue : ("id", .tokens ["user-content-a&b", "user-content-c"]) ∈
      cleanContainer.properties.entries := by
    decide +kernel
  have hwritten : attributeText "id" (.tokens ["user-content-a&b", "user-content-c"]) =
      " " ++ "id" ++ "=\"" ++ "user-content-a&amp;b user-content-c" ++ "\"" := by
    decide +kernel
  have hstarts := prefix_written_iff .github (.element namedContainer) mem_sanitize_namedContainer
    hvalue (.inl rfl) hwritten (by decide)
  exact ⟨hvalue, hwritten, hstarts.mpr nofun⟩

theorem not_prefix_written_namedContainer :
    .element cleanContainer ∈ (sanitize .github (.element namedContainer)).descendants ∧
      ("name", .number (.ofNat 5)) ∈ cleanContainer.properties.entries ∧
      attributeText "name" (.number (.ofNat 5)) = " " ++ "name" ++ "=\"" ++ "5" ++ "\"" ∧
      ¬"user-content-".toList <+: "5".toList := by
  exact ⟨mem_sanitize_namedContainer, by decide +kernel, by decide +kernel, by decide⟩

end Node

end Hypertext

end KeyedMarkup
