import KeyedMarkup.Proofs.Keyed.Written

/-!
# Markup is unambiguous

The normal form of an element drops what markup does not show: keys, the content of void
elements, empty texts, the borders between texts, attributes that are not written and the kinds
of their values. Two elements without raw HTML and with plain names have the same markup exactly
if they have the same normal form. Towards this, markup is taken apart from the left: each part
ends where a character comes that it cannot hold.
-/

namespace KeyedMarkup

namespace Property

/-- Whether an attribute with this value is written at all. -/
def isWritten : Property → Bool
  | .flag set => set
  | .tokens ts => !ts.isEmpty
  | .number _ | .text _ => true

/-- The text that a written value stands for. -/
def meaning : Property → String
  | .flag _ => ""
  | .number x => x.markupText
  | .text s => s
  | .tokens ts => " ".intercalate ts

end Property

namespace Keyed

open Markup

/-- The attributes that are written, each with the text that it stands for. -/
def normProperties (ps : Properties) : Properties :=
  (ps.filter fun _ value => value.isWritten).mapValues fun _ value => .text value.meaning

/-- A text before siblings, joined with a text that comes first; an empty text is left out. -/
def joinText (s : String) : List Node → List Node
  | .text t :: rest => .text (s ++ t) :: rest
  | ns => if s = "" then ns else .text s :: ns

mutual

def Element.norm : Element → Element
  | ⟨tag, _, properties, children⟩ =>
      ⟨tag, none, normProperties properties,
        if voidTags.contains tag then [] else normAll children⟩

def normAll : List Node → List Node
  | [] => []
  | .text s :: rest => joinText s (normAll rest)
  | .element e :: rest => .element e.norm :: normAll rest
  | .raw s :: rest => .raw s :: normAll rest

end

theorem valueText_eq (value : Property) :
    valueText value = if value.isWritten then some value.meaning else none := by
  cases value with
  | flag set => cases set <;> rfl
  | number x => rfl
  | text s => rfl
  | tokens ts => cases ts <;> rfl

theorem entries_normProperties (ps : Properties) :
    (normProperties ps).entries = (writtenAttributes ps).map fun a => (a.1, .text a.2) := by
  simp only [normProperties, Dict.mapValues, Dict.filter, writtenAttributes]
  induction ps.entries with
  | nil => rfl
  | cons e es ih => cases h : e.2.isWritten <;> simp [valueText_eq, h, ih]

theorem normProperties_eq {ps qs : Properties} (h : writtenAttributes ps = writtenAttributes qs) :
    normProperties ps = normProperties qs := by
  rw [Dict.mk.injEq, entries_normProperties, entries_normProperties, h]

theorem writtenAttributes_norm (ps : Properties) :
    writtenAttributes (normProperties ps) = writtenAttributes ps := by
  rw [writtenAttributes, entries_normProperties, List.filterMap_map]
  simp [Function.comp_def, valueText]

theorem joinText_empty (ns : List Node) : joinText "" ns = ns := by
  cases ns with
  | nil => rfl
  | cons n ns => cases n <;> simp [joinText]

theorem joinText_joinText (s t : String) (ns : List Node) :
    joinText s (joinText t ns) = joinText (s ++ t) ns := by
  cases ns with
  | nil => by_cases ht : t = "" <;> simp [joinText, ht]
  | cons n rest =>
      cases n with
      | text u => simp [joinText, String.append_assoc]
      | element e => by_cases ht : t = "" <;> simp [joinText, ht]
      | raw u => by_cases ht : t = "" <;> simp [joinText, ht]

theorem markupOfAll_joinText (s : String) (ns : List Node) :
    markupOfAll (joinText s ns) = escape s ++ markupOfAll ns := by
  have hif : markupOfAll (if s = "" then ns else .text s :: ns) = escape s ++ markupOfAll ns := by
    split
    next h => simp [h, escape]
    next => rw [markupOfAll, Node.markup]
  cases ns with
  | nil => exact hif
  | cons n rest =>
      cases n with
      | text t => simp [joinText, markupOfAll, Node.markup, String.append_assoc]
      | element e => exact hif
      | raw t => exact hif

mutual

theorem markup_norm (e : Element) : e.norm.markup = e.markup := by
  obtain ⟨tag, key, properties, children⟩ := e
  apply String.toList_injective
  rw [toList_markup, toList_markup, Element.norm]
  simp only [writtenAttributes_norm, Element.closing]
  split
  · rfl
  · rw [markupOfAll_normAll children]

theorem markupOfAll_normAll (ns : List Node) : markupOfAll (normAll ns) = markupOfAll ns := by
  match ns with
  | [] => rfl
  | .text s :: rest =>
      rw [normAll, markupOfAll_joinText, markupOfAll_normAll rest, markupOfAll, Node.markup]
  | .element e :: rest =>
      rw [normAll, markupOfAll, markupOfAll, Node.markup, Node.markup, markup_norm e,
        markupOfAll_normAll rest]
  | .raw s :: rest => rw [normAll, markupOfAll, markupOfAll, markupOfAll_normAll rest]

end

/-- Whether a text is a name: not empty and without reserved characters. -/
def IsName (name : String) : Prop := name ≠ "" ∧ IsPlain name

instance (name : String) : Decidable (IsName name) :=
  inferInstanceAs (Decidable (name ≠ "" ∧ IsPlain name))

theorem attributes_eq_of_append {as bs : List (String × String)}
    (has : ∀ a ∈ as, IsPlain a.1) (hbs : ∀ b ∈ bs, IsPlain b.1) {c d : Char} {r s : List Char}
    (hc : c = '>' ∨ c = '/') (hd : d = '>' ∨ d = '/')
    (h : as.flatMap attributeChars ++ c :: r = bs.flatMap attributeChars ++ d :: s) :
    as = bs ∧ c :: r = d :: s := by
  induction as generalizing bs with
  | nil =>
      cases bs with
      | nil => exact ⟨rfl, h⟩
      | cons b bs =>
          obtain ⟨rfl, _⟩ := List.cons.inj h
          exact absurd hc (by decide)
  | cons a as ih =>
      cases bs with
      | nil =>
          obtain ⟨rfl, _⟩ := List.cons.inj h
          exact absurd hd (by decide)
      | cons b bs =>
          simp only [List.flatMap_cons, attributeChars, List.cons_append, List.append_assoc,
            List.cons.injEq, true_and, List.nil_append] at h
          obtain ⟨hname, _, hvalue⟩ := eq_of_append_cons_eq (p := (· = '='))
            (fun x hx hx' => has a List.mem_cons_self x hx (by simp [hx', reserved]))
            (fun x hx hx' => hbs b List.mem_cons_self x hx (by simp [hx', reserved])) rfl rfl h
          obtain ⟨htext, _, hrest⟩ := eq_of_append_cons_eq (p := (· = '"'))
            (fun x hx hx' => not_mem_escape (by decide) (by decide) a.2 (hx' ▸ hx))
            (fun x hx hx' => not_mem_escape (by decide) (by decide) b.2 (hx' ▸ hx)) rfl rfl
            (List.cons.inj hvalue).2
          obtain ⟨rfl, htail⟩ := ih (fun x hx => has x (List.mem_cons_of_mem _ hx))
            (fun x hx => hbs x (List.mem_cons_of_mem _ hx)) hrest
          refine ⟨?_, htail⟩
          rw [Prod.ext (String.toList_injective hname)
            (escape_injective (String.toList_injective htext))]

/-- The first tag of a markup determines its name and its attributes. -/
theorem tag_eq_of_append {e₁ e₂ : Element} {r₁ r₂ : List Char}
    (h₁ : (Node.element e₁).Uses IsName IsName) (h₂ : (Node.element e₂).Uses IsName IsName)
    (h : e₁.markup.toList ++ r₁ = e₂.markup.toList ++ r₂) :
    e₁.tag = e₂.tag ∧ writtenAttributes e₁.properties = writtenAttributes e₂.properties ∧
      e₁.closing ++ r₁ = e₂.closing ++ r₂ := by
  rw [toList_markup, toList_markup] at h
  simp only [List.cons_append, List.append_assoc, List.cons.injEq, true_and] at h
  obtain ⟨c₁, s₁, hc₁, hs₁⟩ := exists_closing_eq e₁
  obtain ⟨c₂, s₂, hc₂, hs₂⟩ := exists_closing_eq e₂
  rw [hs₁, hs₂, List.cons_append, List.cons_append] at h ⊢
  obtain ⟨d₁, t₁, hd₁, ht₁⟩ := exists_attributes_eq (writtenAttributes e₁.properties) hc₁ (s₁ ++ r₁)
  obtain ⟨d₂, t₂, hd₂, ht₂⟩ := exists_attributes_eq (writtenAttributes e₂.properties) hc₂ (s₂ ++ r₂)
  have htag : e₁.tag.toList = e₂.tag.toList ∧ d₁ = d₂ ∧ t₁ = t₂ := by
    rw [ht₁, ht₂] at h
    exact eq_of_append_cons_eq (p := (· ∈ reserved)) h₁.1.2 h₂.1.2
      (reserved_of_delimiter _ hd₁) (reserved_of_delimiter _ hd₂) h
  refine ⟨String.toList_injective htag.1, attributes_eq_of_append
    (isPlain_writtenAttributes fun p hp => (h₁.2 p hp).2)
    (isPlain_writtenAttributes fun p hp => (h₂.2 p hp).2) hc₁ hc₂ ?_⟩
  rw [ht₁, ht₂, htag.2.1, htag.2.2]

/-- A text ends where markup starts. -/
theorem text_eq_of_append {s t : String} {r₁ r₂ : List Char}
    (h : (escape s).toList ++ '<' :: r₁ = (escape t).toList ++ '<' :: r₂) :
    s = t ∧ r₁ = r₂ := by
  obtain ⟨htext, _, hrest⟩ := eq_of_append_cons_eq (p := (· = '<'))
    (fun x hx hx' => not_mem_escape (by decide) (by decide) s (hx' ▸ hx))
    (fun x hx hx' => not_mem_escape (by decide) (by decide) t (hx' ▸ hx)) rfl rfl h
  exact ⟨escape_injective (String.toList_injective htext), hrest⟩

/-- Where an element starts no element ends. -/
theorem end_ne_element {e : Element} (he : (Node.element e).Uses IsName IsName) (s t : String)
    (r₁ r₂ : List Char) :
    (escape s).toList ++ '<' :: '/' :: r₁ ≠ (escape t).toList ++ (e.markup.toList ++ r₂) := by
  intro h
  rw [toList_markup, List.cons_append, List.append_assoc] at h
  have htag := (text_eq_of_append h).2
  cases hcs : e.tag.toList with
  | nil => exact he.1.1 (String.toList_eq_nil_iff.mp hcs)
  | cons c cs =>
      rw [hcs] at htag
      have hc : c ∉ reserved := he.1.2 c (hcs ▸ List.mem_cons_self)
      exact hc ((List.cons.inj htag).1 ▸ by decide)

theorem markup_text_append (s t : String) (ns : List Node) (r : List Char) :
    (escape s).toList ++ ((markupOfAll (.text t :: ns)).toList ++ r) =
      (escape (s ++ t)).toList ++ ((markupOfAll ns).toList ++ r) := by
  rw [toList_markupOfAll_cons, Node.markup, escape_append, String.toList_append]
  simp only [List.append_assoc]

theorem joinText_normAll_text (s t : String) (ns : List Node) :
    joinText s (normAll (.text t :: ns)) = joinText (s ++ t) (normAll ns) :=
  joinText_joinText s t (normAll ns)

theorem markup_element_append (e : Element) (ns : List Node) (r : List Char) :
    (markupOfAll (.element e :: ns)).toList ++ r =
      e.markup.toList ++ ((markupOfAll ns).toList ++ r) := by
  rw [toList_markupOfAll_cons, Node.markup, List.append_assoc]

theorem uses_of_cons {tags attributes : String → Prop} {n : Node} {ns : List Node}
    (h : ∀ m ∈ nodesOfAll (n :: ns), m.Uses tags attributes) :
    (∀ m ∈ n.nodes, m.Uses tags attributes) ∧ ∀ m ∈ nodesOfAll ns, m.Uses tags attributes := by
  rwa [nodesOfAll, List.forall_mem_append] at h

/-- The texts at the front of a list of nodes are read with the text before them, up to the first
element or the end. -/
theorem exists_front (s : String) (ns : List Node)
    (h : ∀ n ∈ nodesOfAll ns, n.Uses IsName IsName) :
    ∃ t rest, (rest = [] ∨ ∃ e others, rest = .element e :: others) ∧
      (∀ n ∈ nodesOfAll rest, n.Uses IsName IsName) ∧
      joinText s (normAll ns) = joinText t (normAll rest) ∧
      ∀ r, (escape s).toList ++ ((markupOfAll ns).toList ++ r) =
        (escape t).toList ++ ((markupOfAll rest).toList ++ r) := by
  induction ns generalizing s with
  | nil => exact ⟨s, [], .inl rfl, h, rfl, fun _ => rfl⟩
  | cons n ns ih =>
      obtain ⟨hn, hns⟩ := uses_of_cons h
      cases n with
      | text t =>
          obtain ⟨u, rest, hrest, huses, hnorm, hmarkup⟩ := ih (s ++ t) hns
          refine ⟨u, rest, hrest, huses, ?_, fun r => ?_⟩
          · rw [joinText_normAll_text, hnorm]
          · rw [markup_text_append, hmarkup]
      | element e => exact ⟨s, .element e :: ns, .inr ⟨e, ns, rfl⟩, h, rfl, fun _ => rfl⟩
      | raw t => exact absurd (hn _ (self_mem_nodes _)) id

mutual

/-- The first element of a markup is determined up to its normal form. -/
theorem norm_eq_of_append (e₁ e₂ : Element) {r₁ r₂ : List Char}
    (h₁ : ∀ n ∈ e₁.nodes, n.Uses IsName IsName) (h₂ : ∀ n ∈ e₂.nodes, n.Uses IsName IsName)
    (h : e₁.markup.toList ++ r₁ = e₂.markup.toList ++ r₂) : e₁.norm = e₂.norm ∧ r₁ = r₂ := by
  obtain ⟨tag₁, key₁, properties₁, children₁⟩ := e₁
  obtain ⟨tag₂, key₂, properties₂, children₂⟩ := e₂
  rw [nodes_element, List.forall_mem_cons] at h₁ h₂
  obtain ⟨htag, hattributes, hclosing⟩ := tag_eq_of_append h₁.1 h₂.1 h
  obtain rfl : tag₁ = tag₂ := htag
  rw [Element.norm, Element.norm, normProperties_eq hattributes]
  simp only [Element.closing] at hclosing
  split at hclosing
  next hvoid =>
    rw [if_pos hvoid, if_pos hvoid]
    exact ⟨rfl, by simpa using hclosing⟩
  next hvoid =>
    rw [if_neg hvoid, if_neg hvoid]
    simp only [List.cons_append, List.append_assoc, List.cons.injEq, true_and] at hclosing
    obtain ⟨hchildren, hrest⟩ := normAll_eq_of_append children₁ children₂ "" "" h₁.2 h₂.2
      (by simpa using hclosing)
    rw [joinText_empty, joinText_empty] at hchildren
    exact ⟨by rw [hchildren], by simpa using hrest⟩

/-- So are the nodes before an end tag, with a text before them that is read already. -/
theorem normAll_eq_of_append (ns ms : List Node) (s₁ s₂ : String) {r₁ r₂ : List Char}
    (hns : ∀ n ∈ nodesOfAll ns, n.Uses IsName IsName)
    (hms : ∀ n ∈ nodesOfAll ms, n.Uses IsName IsName)
    (h : (escape s₁).toList ++ ((markupOfAll ns).toList ++ '<' :: '/' :: r₁) =
      (escape s₂).toList ++ ((markupOfAll ms).toList ++ '<' :: '/' :: r₂)) :
    joinText s₁ (normAll ns) = joinText s₂ (normAll ms) ∧ r₁ = r₂ := by
  obtain ⟨t, ms', hfront, hms', hnormMs, hmarkupMs⟩ := exists_front s₂ ms hms
  rw [hmarkupMs] at h
  rw [hnormMs]
  cases ns with
  | nil =>
      obtain rfl | ⟨e', others, rfl⟩ := hfront
      · obtain ⟨rfl, hrest⟩ := text_eq_of_append h
        exact ⟨rfl, by simpa using hrest⟩
      · have he' := (uses_of_cons hms').1 _ (self_mem_nodes _)
        rw [markup_element_append] at h
        exact absurd h (end_ne_element he' _ _ _ _)
  | cons n rest =>
      obtain ⟨hn, hrest⟩ := uses_of_cons hns
      cases n with
      | text s =>
          rw [markup_text_append] at h
          rw [joinText_normAll_text]
          exact normAll_eq_of_append rest ms' (s₁ ++ s) t hrest hms' h
      | element e =>
          rw [markup_element_append] at h
          obtain rfl | ⟨e', others, rfl⟩ := hfront
          · exact absurd h.symm (end_ne_element (hn _ (self_mem_nodes _)) _ _ _ _)
          · obtain ⟨he', hothers⟩ := uses_of_cons hms'
            rw [markup_element_append, toList_markup, toList_markup] at h
            obtain ⟨rfl, hmarkup⟩ := text_eq_of_append h
            have helements : e.markup.toList ++ ((markupOfAll rest).toList ++ '<' :: '/' :: r₁) =
                e'.markup.toList ++ ((markupOfAll others).toList ++ '<' :: '/' :: r₂) := by
              rw [toList_markup, toList_markup]
              exact congrArg ('<' :: ·) hmarkup
            obtain ⟨hnorm, htail⟩ := norm_eq_of_append e e' hn he' helements
            obtain ⟨hnorms, hr⟩ := normAll_eq_of_append rest others "" "" hrest hothers
              (by simpa using htail)
            rw [joinText_empty, joinText_empty] at hnorms
            rw [normAll, normAll, hnorm, hnorms]
            exact ⟨rfl, hr⟩
      | raw s => exact absurd (hn _ (self_mem_nodes _)) id

end

/-- Two elements without raw HTML and with plain names have the same markup exactly if they have
the same normal form. -/
theorem markup_eq_iff_norm_eq {e₁ e₂ : Element} (h₁ : ∀ n ∈ e₁.nodes, n.Uses IsName IsName)
    (h₂ : ∀ n ∈ e₂.nodes, n.Uses IsName IsName) : e₁.markup = e₂.markup ↔ e₁.norm = e₂.norm := by
  constructor
  · intro h
    have happend : e₁.markup.toList ++ [] = e₂.markup.toList ++ [] := by rw [h]
    exact (norm_eq_of_append e₁ e₂ h₁ h₂ happend).1
  · intro h
    rw [← markup_norm e₁, h, markup_norm e₂]

/-- A paragraph with a text in two parts, a hidden attribute and content in a void element. -/
def brokenParagraph : Element :=
  ⟨"p", some "h-0", .ofList [("class", .tokens ["a", "b"]), ("hidden", .flag false)],
    [.text "1 ", .text "< 2", .element ⟨"br", some "h-0-2", .empty, [.text "lost"]⟩]⟩

def readParagraph : Element :=
  ⟨"p", none, .ofList [("class", .text "a b")],
    [.text "1 < 2", .text "", .element ⟨"br", none, .empty, []⟩]⟩

theorem markup_brokenParagraph :
    brokenParagraph.norm = readParagraph.norm ∧ brokenParagraph.markup = readParagraph.markup := by
  have hnorm : brokenParagraph.norm = readParagraph.norm := by with_unfolding_all rfl
  exact ⟨hnorm, (markup_eq_iff_norm_eq (by decide +kernel) (by decide +kernel)).mpr hnorm⟩

end Keyed

end KeyedMarkup
