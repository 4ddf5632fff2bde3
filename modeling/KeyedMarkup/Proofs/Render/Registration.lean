import Mathlib.Data.Finset.Dedup
import Mathlib.Data.Finset.Card
import KeyedMarkup.Proofs.Doc.Canonical
import KeyedMarkup.Proofs.Render.Recursion

/-!
# Registries and the registrations that led to them

A registry is built by registrations, one after the other, and keeps no record of them. Yet what
it answers for a node can be told from that record: what was registered last for the tag of the
node, or else for its kind, or else the built-in rendering. A registration for a target that had
one before replaces it, so a registry has one entry for each target in the record.
-/

namespace KeyedMarkup.Render

/-- Registering under the name of a recognized kind is registering for the kind. -/
theorem kind_ofName_name {kind : Doc.Kind} (h : kind.recognized = true) :
    Target.kind (.ofName kind.name) = .kind kind := by
  rw [Doc.Kind.ofName_name, Doc.Kind.canonical_of_recognized h]

variable {γ : Type}

/-- What the last registration for a target was for. -/
def latest? (target : Target) : List (Target × γ) → Option γ
  | [] => none
  | e :: later => (latest? target later).or (if e.1 = target then some e.2 else none)

/-- What is said of a node with this tag and this kind after some registrations, if its built-in
rendering is `own`. -/
def answer (es : List (Target × γ)) (tag : Option String) (kind : Option Doc.Kind)
    (own : Resolution γ) : Resolution γ :=
  let byTag := tag.bind fun t => (latest? (.tag t) es).map (Resolution.override (.tag t))
  let byKind := kind.bind fun k => (latest? (.kind k) es).map (Resolution.override (.kind k))
  (byTag.or byKind).getD own

namespace Registry

def registered (r : Registry γ) : List Target := r.entries.map (·.1)

private theorem lookup_filter_of_ne {target other : Target} (h : target ≠ other)
    (es : List (Target × γ)) :
    (es.filter fun e => e.1 ≠ other).lookup target = es.lookup target := by
  induction es with
  | nil => rfl
  | cons e rest ih =>
      by_cases he : e.1 = other
      · have hne : (target == e.1) = false := by rw [he]; exact beq_false_of_ne h
        rw [List.filter_cons_of_neg (by simpa using he), ih, List.lookup_cons, hne]
      · rw [List.filter_cons_of_pos (by simpa using he), List.lookup_cons, List.lookup_cons, ih]

theorem get?_insert (r : Registry γ) (target other : Target) (value : γ) :
    (r.insert other value).get? target =
      if other = target then some value else r.get? target := by
  rw [get?, insert, List.lookup_cons]
  by_cases h : other = target
  · rw [if_pos h, h, beq_self_eq_true]
  · have hne : (target == other) = false := beq_false_of_ne (Ne.symm h)
    rw [if_neg h, hne, lookup_filter_of_ne (Ne.symm h), get?]

theorem mem_registered_insert {r : Registry γ} {target other : Target} {value : γ} :
    target ∈ (r.insert other value).registered ↔ target = other ∨ target ∈ r.registered := by
  by_cases h : target = other <;> simp [registered, insert, h]

theorem get?_insertAll (r : Registry γ) (es : List (Target × γ)) (target : Target) :
    (r.insertAll es).get? target = (latest? target es).or (r.get? target) := by
  induction es generalizing r with
  | nil => rfl
  | cons e later ih =>
      have hlater := ih (r.insert e.1 e.2)
      rw [get?_insert] at hlater
      rw [insertAll, List.foldl_cons, ← insertAll, hlater, latest?, Option.or_assoc]
      by_cases h : e.1 = target <;> simp [h]

theorem mem_registered_insertAll {r : Registry γ} {es : List (Target × γ)} {target : Target} :
    target ∈ (r.insertAll es).registered ↔ target ∈ es.map (·.1) ∨ target ∈ r.registered := by
  induction es generalizing r with
  | nil => simp [insertAll]
  | cons e later ih =>
      rw [insertAll, List.foldl_cons, ← insertAll, ih, mem_registered_insert, List.map_cons,
        List.mem_cons, or_assoc, or_left_comm]

theorem get?_ofList (es : List (Target × γ)) (target : Target) :
    (ofList es).get? target = latest? target es := by
  have hempty : (empty : Registry γ).get? target = none := rfl
  rw [ofList, get?_insertAll, hempty, Option.or_none]

theorem size_ofList (es : List (Target × γ)) :
    (ofList es).size = (es.map (·.1)).toFinset.card := by
  have hnodup : (ofList es).registered.Nodup := (ofList es).distinct
  have hsame : (ofList es).registered.toFinset = (es.map (·.1)).toFinset := by
    ext target
    have hnone : target ∉ (empty : Registry γ).registered := List.not_mem_nil
    rw [List.mem_toFinset, List.mem_toFinset, ofList, mem_registered_insertAll]
    exact or_iff_left hnone
  calc
    (ofList es).size = (ofList es).registered.length := (List.length_map _).symm
    _ = (ofList es).registered.toFinset.card := (List.toFinset_card_of_nodup hnodup).symm
    _ = (es.map (·.1)).toFinset.card := by rw [hsame]

/-- What a registry answers, from the tag and the kind of the node alone. -/
theorem resolve_eq_answer (es : List (Target × γ)) (n : Hypertext.Node) :
    (ofList es).resolve n = answer es (tagOf n) n.kind? (builtIn n) := by
  rw [resolve_eq, override?, answer]
  simp only [get?_ofList]
  cases tagOf n with
  | none => cases n.kind? with
    | none => rfl
    | some kind => cases hkind : latest? (.kind kind) es <;> simp [hkind]
  | some tag =>
      cases htag : latest? (.tag tag) es with
      | some value => simp [htag]
      | none =>
          cases n.kind? with
          | none => simp [htag]
          | some kind => cases hkind : latest? (.kind kind) es <;> simp [htag, hkind]

theorem builtIn_element_eq (e : Hypertext.Element) :
    (builtIn (.element e) : Resolution γ) =
      if e.kind.any fun kind => !kind.recognized then .fallback else .builtIn .element := by
  obtain ⟨tag, properties, children, kind⟩ := e
  cases kind with
  | none => rfl
  | some kind => cases kind <;> rfl

/-- After any registrations, what was registered last for the tag of a node wins, then what was
registered last for its kind, then the built-in rendering. Each target counts once, and a
recognized kind may be given by its name. -/
theorem resolve_ofList (es : List (Target × γ)) :
    (∀ children, (ofList es).resolve (.root children) =
        answer es (some "div") (some .root) (.builtIn .container)) ∧
      (∀ value, (ofList es).resolve (.text value) =
        answer es none (some .text) (.builtIn .text)) ∧
      (∀ value, (ofList es).resolve (.raw value) =
        answer es none (some .html) (.builtIn .raw)) ∧
      (∀ e : Hypertext.Element, (ofList es).resolve (.element e) =
        answer es (some e.tag) e.kind
          (if e.kind.any fun kind => !kind.recognized then .fallback else .builtIn .element)) ∧
      (ofList es).size = (es.map (·.1)).toFinset.card ∧
      ((ofList es).isEmpty = true ↔ (ofList es).size = 0) ∧
      (∀ kind : Doc.Kind, kind.recognized = true →
        Target.kind (.ofName kind.name) = .kind kind) := by
  refine ⟨fun children => ?_, fun value => ?_, fun value => ?_, fun e => ?_, size_ofList es, ?_,
    fun _ => kind_ofName_name⟩
  · exact resolve_eq_answer es (.root children)
  · exact resolve_eq_answer es (.text value)
  · exact resolve_eq_answer es (.raw value)
  · rw [resolve_eq_answer, builtIn_element_eq]
    rfl
  · rw [isEmpty, size, List.isEmpty_iff_length_eq_zero]

/-- The kind of a code block and the tag of the element inside it share a name only. -/
example : (ofList [(.kind .code, 1), (.tag "code", 2)]).resolve
    (.element ⟨"pre", .empty, [], some .code⟩) = .override (.kind .code) 1 := rfl

end Registry

end KeyedMarkup.Render
