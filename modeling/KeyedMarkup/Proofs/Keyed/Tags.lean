import KeyedMarkup.Proofs.Keyed.Written

/-!
# The tags of a markup

Without raw HTML every `<` of a markup belongs to a start tag or an end tag of an element of the
tree: no text and no value of an attribute brings one along.
-/

namespace KeyedMarkup.Keyed

namespace Markup

variable (names : String → Prop)

/-- Whether a text starts with a name of the given kind and a delimiter, after a `/` or not. -/
def StartsWithName (cs : List Char) : Prop :=
  ∃ name delimiter rest, names name ∧ delimiter ∈ delimiters ∧
    (cs = name.toList ++ delimiter :: rest ∨ cs = '/' :: (name.toList ++ delimiter :: rest))

/-- Whether every `<` in a text is followed by such a name. -/
def OpensOnly (cs : List Char) : Prop :=
  ∀ front rest, cs = front ++ '<' :: rest → StartsWithName names rest

variable {names} {cs ds : List Char}

theorem startsWithName_append (h : StartsWithName names cs) : StartsWithName names (cs ++ ds) := by
  obtain ⟨name, delimiter, rest, hname, hdelimiter, h | h⟩ := h
  · exact ⟨name, delimiter, rest ++ ds, hname, hdelimiter, .inl (by simp [h])⟩
  · exact ⟨name, delimiter, rest ++ ds, hname, hdelimiter, .inr (by simp [h])⟩

theorem opensOnly_of_not_mem (h : '<' ∉ cs) : OpensOnly names cs := by
  rintro front rest rfl
  exact absurd (by simp) h

theorem opensOnly_append (hcs : OpensOnly names cs) (hds : OpensOnly names ds) :
    OpensOnly names (cs ++ ds) := by
  intro front rest h
  rcases List.append_eq_append_iff.mp h with ⟨w, _, hw⟩ | ⟨w, hw, hrest⟩
  · exact hds w rest hw
  · cases w with
    | nil => exact hds [] rest hrest.symm
    | cons c w =>
        obtain ⟨rfl, rfl⟩ := List.cons.inj hrest
        exact startsWithName_append (hcs front w hw)

theorem opensOnly_cons (hname : StartsWithName names cs) (h : OpensOnly names cs) :
    OpensOnly names ('<' :: cs) := by
  intro front rest heq
  cases front with
  | nil => exact (List.cons.inj heq).2 ▸ hname
  | cons c front => exact h front rest (List.cons.inj heq).2

theorem not_mem_of_isPlain {name : String} (h : IsPlain name) : '<' ∉ name.toList :=
  fun hmem => h '<' hmem (by decide)

theorem not_mem_attributeChars {a : String × String} (h : IsPlain a.1) :
    '<' ∉ attributeChars a := by
  have hvalue := not_mem_escape (c := '<') (by decide) (by decide) a.2
  have hname := not_mem_of_isPlain h
  simp only [attributeChars, List.mem_cons, List.mem_append, List.not_mem_nil, or_false, not_or]
  exact ⟨by decide, hname, by decide, by decide, hvalue, by decide⟩

end Markup

open Markup

variable {names : String → Prop}

theorem startsWithName_tag (e : Element) (h : names e.tag) :
    StartsWithName names
      (e.tag.toList ++ ((writtenAttributes e.properties).flatMap attributeChars ++ e.closing)) := by
  obtain ⟨c, cs, hc, hclosing⟩ := exists_closing_eq e
  obtain ⟨d, ds, hd, hattributes⟩ := exists_attributes_eq (writtenAttributes e.properties) hc cs
  exact ⟨e.tag, d, ds, h, hd, .inl (by rw [hclosing, hattributes])⟩

theorem opensOnly_closing {e : Element} (hplain : IsPlain e.tag) (h : names e.tag)
    (hchildren : OpensOnly names (markupOfAll e.children).toList) : OpensOnly names e.closing := by
  unfold Element.closing
  split
  · exact opensOnly_of_not_mem (by decide)
  · have hend : OpensOnly names ('<' :: '/' :: (e.tag.toList ++ ['>'])) := by
      refine opensOnly_cons ⟨e.tag, '>', [], h, by decide, .inr rfl⟩ (opensOnly_of_not_mem ?_)
      have hname := not_mem_of_isPlain hplain
      simp [hname]
    have hstart : OpensOnly names ['>'] := opensOnly_of_not_mem (by decide)
    exact opensOnly_append hstart (opensOnly_append hchildren hend)

mutual

/-- Every `<` in the markup of a node is followed by the name of an element of the tree. -/
theorem opensOnly_markup (hnames : ∀ name, names name → IsPlain name) (n : Node)
    (h : ∀ m ∈ n.nodes, m.Uses names IsPlain) : OpensOnly names n.markup.toList := by
  cases n with
  | text s => exact opensOnly_of_not_mem (not_mem_escape (by decide) (by decide) s)
  | raw s => exact absurd (h _ (self_mem_nodes _)) id
  | element e =>
      rw [← Element.nodes, nodes_element, List.forall_mem_cons] at h
      obtain ⟨⟨htag, hattributes⟩, hchildren⟩ := h
      rw [Node.markup, toList_markup]
      refine opensOnly_cons (startsWithName_tag e htag) ?_
      refine opensOnly_append (opensOnly_of_not_mem (not_mem_of_isPlain (hnames _ htag))) ?_
      refine opensOnly_append (opensOnly_of_not_mem ?_) ?_
      · intro hmem
        obtain ⟨a, ha, hmem⟩ := List.mem_flatMap.mp hmem
        exact not_mem_attributeChars (isPlain_writtenAttributes hattributes a ha) hmem
      · obtain ⟨tag, key, properties, children⟩ := e
        exact opensOnly_closing (hnames _ htag) htag (opensOnly_markupOfAll hnames children hchildren)

theorem opensOnly_markupOfAll (hnames : ∀ name, names name → IsPlain name) (ns : List Node)
    (h : ∀ m ∈ nodesOfAll ns, m.Uses names IsPlain) :
    OpensOnly names (markupOfAll ns).toList := by
  cases ns with
  | nil => exact opensOnly_of_not_mem (by simp [markupOfAll])
  | cons n rest =>
      rw [nodesOfAll, List.forall_mem_append] at h
      rw [toList_markupOfAll_cons]
      exact opensOnly_append (opensOnly_markup hnames n h.1) (opensOnly_markupOfAll hnames rest h.2)

end

end KeyedMarkup.Keyed
