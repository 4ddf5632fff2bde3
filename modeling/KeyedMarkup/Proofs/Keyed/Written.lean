import KeyedMarkup.Keyed.Markup
import KeyedMarkup.Proofs.Keyed.Nodes

/-!
# Markup character by character

The markup of an element is a `<`, its tag, its attributes and what closes it. Escaping keeps
`<`, `>` and quotation marks out of texts and values, and an escaped text reads back in one way
only.
-/

namespace KeyedMarkup.Keyed

/-- Two lists that agree up to the first delimiter of each agree in what comes before it. -/
theorem eq_of_append_cons_eq {α : Type} {p : α → Prop} {xs ys r s : List α} {c d : α}
    (hxs : ∀ x ∈ xs, ¬p x) (hys : ∀ y ∈ ys, ¬p y) (hc : p c) (hd : p d)
    (h : xs ++ c :: r = ys ++ d :: s) : xs = ys ∧ c = d ∧ r = s := by
  induction xs generalizing ys with
  | nil =>
      cases ys with
      | nil => simpa using h
      | cons y ys => exact absurd ((List.cons.inj h).1 ▸ hc) (hys y List.mem_cons_self)
  | cons x xs ih =>
      cases ys with
      | nil => exact absurd ((List.cons.inj h).1 ▸ hd) (hxs x List.mem_cons_self)
      | cons y ys =>
          obtain ⟨hxy, htail⟩ := List.cons.inj h
          obtain ⟨rfl, hrest⟩ := ih (fun x hx => hxs x (List.mem_cons_of_mem _ hx))
            (fun y hy => hys y (List.mem_cons_of_mem _ hy)) htail
          exact ⟨by rw [hxy], hrest⟩

namespace Markup

/-- The characters that have a meaning inside a tag. -/
def reserved : List Char := [' ', '<', '>', '/', '=', '"']

def IsPlain (name : String) : Prop := ∀ c ∈ name.toList, c ∉ reserved

instance (name : String) : Decidable (IsPlain name) :=
  List.decidableBAll (fun c => c ∉ reserved) name.toList

/-- The characters that end the name in a tag. -/
def delimiters : List Char := [' ', '>', '/']

theorem reserved_of_delimiter : ∀ c ∈ delimiters, c ∈ reserved := by
  simp [delimiters, reserved]

/-- The characters that stand for another text when written. -/
def escaped : List Char := ['&', '<', '>', '"', '\'']

/-- The name in the reference that an escaped character is written as. -/
def reference : Char → List Char
  | '&' => ['a', 'm', 'p']
  | '<' => ['l', 't']
  | '>' => ['g', 't']
  | '"' => ['q', 'u', 'o', 't']
  | _ => ['#', 'x', '2', '7']

theorem escapeChar_of_not_mem {c : Char} (h : c ∉ escaped) : escapeChar c = [c] := by
  simp only [escaped, List.mem_cons, List.not_mem_nil, or_false, not_or] at h
  obtain ⟨hamp, hlt, hgt, hquot, hapos⟩ := h
  unfold escapeChar
  split <;> first | contradiction | rfl

theorem escapeChar_of_mem : ∀ c ∈ escaped, escapeChar c = '&' :: (reference c ++ [';']) := by
  intro c hc
  simp only [escaped, List.mem_cons, List.not_mem_nil, or_false] at hc
  rcases hc with rfl | rfl | rfl | rfl | rfl <;> rfl

theorem reference_plain : ∀ c ∈ escaped, ∀ d ∈ escaped, d ∉ reference c ++ [';'] := by
  simp [escaped, reference]

theorem reference_injective :
    ∀ c ∈ escaped, ∀ d ∈ escaped, reference c = reference d → c = d := by
  simp [escaped, reference]

theorem semicolon_not_mem_reference : ∀ c ∈ escaped, ';' ∉ reference c := by
  simp [escaped, reference]

theorem escapeChar_ne_nil (c : Char) : escapeChar c ≠ [] := by
  by_cases h : c ∈ escaped
  · simp [escapeChar_of_mem c h]
  · simp [escapeChar_of_not_mem h]

theorem escapeChar_append_inj {c d : Char} {r s : List Char}
    (h : escapeChar c ++ r = escapeChar d ++ s) : c = d ∧ r = s := by
  by_cases hc : c ∈ escaped <;> by_cases hd : d ∈ escaped
  · rw [escapeChar_of_mem c hc, escapeChar_of_mem d hd] at h
    have href : reference c ++ ';' :: r = reference d ++ ';' :: s := by simpa using h
    obtain ⟨hname, _, hrest⟩ := eq_of_append_cons_eq (p := (· = ';'))
      (fun x hx hx' => semicolon_not_mem_reference c hc (hx' ▸ hx))
      (fun y hy hy' => semicolon_not_mem_reference d hd (hy' ▸ hy)) rfl rfl href
    exact ⟨reference_injective c hc d hd hname, hrest⟩
  · rw [escapeChar_of_mem c hc, escapeChar_of_not_mem hd] at h
    exact absurd (by simp [escaped, ← (List.cons.inj h).1]) hd
  · rw [escapeChar_of_not_mem hc, escapeChar_of_mem d hd] at h
    exact absurd (by simp [escaped, (List.cons.inj h).1]) hc
  · rw [escapeChar_of_not_mem hc, escapeChar_of_not_mem hd] at h
    exact List.cons.inj h

@[simp] theorem toList_escape (s : String) : (escape s).toList = s.toList.flatMap escapeChar := by
  simp [escape]

@[simp] theorem escape_append (s t : String) : escape (s ++ t) = escape s ++ escape t := by
  apply String.toList_injective
  simp

theorem not_mem_escape {c : Char} (hc : c ∈ escaped) (hamp : c ≠ '&') (s : String) :
    c ∉ (escape s).toList := by
  rw [toList_escape]
  intro h
  obtain ⟨d, _, hd⟩ := List.mem_flatMap.mp h
  by_cases hmem : d ∈ escaped
  · rw [escapeChar_of_mem d hmem] at hd
    exact reference_plain d hmem c hc ((List.mem_cons.mp hd).resolve_left hamp)
  · rw [escapeChar_of_not_mem hmem, List.mem_singleton] at hd
    exact hmem (hd ▸ hc)

private theorem flatMap_escapeChar_inj {cs ds : List Char}
    (h : cs.flatMap escapeChar = ds.flatMap escapeChar) : cs = ds := by
  induction cs generalizing ds with
  | nil =>
      cases ds with
      | nil => rfl
      | cons d ds => exact absurd (List.append_eq_nil_iff.mp h.symm).1 (escapeChar_ne_nil d)
  | cons c cs ih =>
      cases ds with
      | nil => exact absurd (List.append_eq_nil_iff.mp h).1 (escapeChar_ne_nil c)
      | cons d ds =>
          obtain ⟨rfl, hrest⟩ := escapeChar_append_inj h
          rw [ih hrest]

theorem escape_injective {s t : String} (h : escape s = escape t) : s = t := by
  have hchars := congrArg String.toList h
  rw [toList_escape, toList_escape] at hchars
  exact String.toList_injective (flatMap_escapeChar_inj hchars)

def writtenAttributes (ps : Properties) : List (String × String) :=
  ps.entries.filterMap fun e => (valueText e.2).map (e.1, ·)

def attributeChars (a : String × String) : List Char :=
  ' ' :: (a.1.toList ++ '=' :: '"' :: ((escape a.2).toList ++ ['"']))

private theorem intercalate_empty (ss : List String) :
    ("".intercalate ss).toList = ss.flatMap String.toList := by
  rw [String.toList_intercalate]
  induction ss with
  | nil => rfl
  | cons s ss ih => cases ss <;> simp_all

theorem toList_attributeText (name : String) (value : Property) :
    (attributeText name value).toList =
      ((valueText value).map (name, ·)).toList.flatMap attributeChars := by
  unfold attributeText
  cases valueText value <;> simp [attributeChars]

theorem toList_attributesText (ps : Properties) :
    (attributesText ps).toList = (writtenAttributes ps).flatMap attributeChars := by
  rw [attributesText, intercalate_empty, writtenAttributes]
  induction ps.entries with
  | nil => rfl
  | cons e es ih =>
      rw [List.map_cons, List.flatMap_cons, ih, toList_attributeText]
      cases h : valueText e.2 <;> simp [h]

theorem isPlain_writtenAttributes {ps : Properties} (h : ∀ p ∈ ps.entries, IsPlain p.1) :
    ∀ a ∈ writtenAttributes ps, IsPlain a.1 := by
  intro a ha
  obtain ⟨e, he, hea⟩ := List.mem_filterMap.mp ha
  obtain ⟨text, _, rfl⟩ := Option.map_eq_some_iff.mp hea
  exact h e he

/-- What comes after the name in a tag starts with a delimiter. -/
theorem exists_attributes_eq (as : List (String × String)) {d : Char} (hd : d = '>' ∨ d = '/')
    (s : List Char) : ∃ c cs, c ∈ delimiters ∧ as.flatMap attributeChars ++ d :: s = c :: cs := by
  cases as with
  | nil => exact ⟨d, s, by rcases hd with rfl | rfl <;> decide, rfl⟩
  | cons a as => exact ⟨' ', _, by decide, rfl⟩

end Markup

open Markup

/-- What follows the attributes of an element in its markup. -/
def Element.closing (e : Element) : List Char :=
  if voidTags.contains e.tag then ['/', '>']
  else '>' :: ((markupOfAll e.children).toList ++ '<' :: '/' :: (e.tag.toList ++ ['>']))

theorem exists_closing_eq (e : Element) :
    ∃ c cs, (c = '>' ∨ c = '/') ∧ e.closing = c :: cs := by
  unfold Element.closing
  split
  · exact ⟨'/', _, .inr rfl, rfl⟩
  · exact ⟨'>', _, .inl rfl, rfl⟩

theorem toList_markup (e : Element) :
    e.markup.toList = '<' :: (e.tag.toList ++
      ((writtenAttributes e.properties).flatMap attributeChars ++ e.closing)) := by
  obtain ⟨tag, key, properties, children⟩ := e
  rw [Element.markup, Element.closing]
  split <;> simp [toList_attributesText]

theorem toList_markupOfAll_cons (n : Node) (ns : List Node) :
    (markupOfAll (n :: ns)).toList = n.markup.toList ++ (markupOfAll ns).toList := by
  rw [markupOfAll, String.toList_append]

end KeyedMarkup.Keyed
