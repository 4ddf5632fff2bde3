import Mathlib.Data.List.Nodup
import KeyedMarkup.Proofs.Keyed.Written
import KeyedMarkup.Proofs.Render.Recursion

/-!
# Keys tell positions apart

No index has a hyphen among its digits, so the last hyphen of a key stands before its last index,
whatever the prefix is, and two positions of a tree never share a key. Where components only give
new names to what they are asked about, the keys of a rendered tree are those of the positions of
its roots and elements, and of the texts and the raw HTML that a component turned into elements.
-/

namespace KeyedMarkup.Render

theorem hyphen_not_mem_toString (n : Nat) : '-' ∉ (toString n).toList := by
  intro hmem
  rw [Nat.toString_eq_ofList_toDigits, String.toList_ofList] at hmem
  have hdigit : '-'.isDigit = true :=
    Nat.isDigit_of_mem_toDigits (by decide) (by decide) hmem
  exact absurd hdigit (by decide)

theorem toString_nat_injective : Function.Injective (toString : Nat → String) := by
  intro m n h
  rw [Nat.toString_eq_ofList_toDigits, Nat.toString_eq_ofList_toDigits] at h
  have hdigits : Nat.toDigits 10 m = Nat.toDigits 10 n := String.ofList_injective h
  calc
    m = Nat.ofDigitChars 10 (Nat.toDigits 10 m) 0 := Nat.ofDigitChars_ten_toDigits.symm
    _ = Nat.ofDigitChars 10 (Nat.toDigits 10 n) 0 := by rw [hdigits]
    _ = n := Nat.ofDigitChars_ten_toDigits

/-- The last hyphen of a key is found from its end. -/
theorem segment_inj {key key' : String} {m n : Nat}
    (h : key ++ "-" ++ toString m = key' ++ "-" ++ toString n) : key = key' ∧ m = n := by
  have hchars : (toString m).toList.reverse ++ '-' :: key.toList.reverse =
      (toString n).toList.reverse ++ '-' :: key'.toList.reverse := by
    have hreverse := congrArg (fun text => text.toList.reverse) h
    simpa using hreverse
  have hplain (k : Nat) : ∀ c ∈ (toString k).toList.reverse, ¬c = '-' := by
    intro c hc hhyphen
    rw [hhyphen, List.mem_reverse] at hc
    exact hyphen_not_mem_toString k hc
  obtain ⟨hindex, _, hkey⟩ := Keyed.eq_of_append_cons_eq (hplain m) (hplain n) rfl rfl hchars
  constructor
  · exact String.toList_injective (List.reverse_injective hkey)
  · exact toString_nat_injective (String.toList_injective (List.reverse_injective hindex))

theorem keyAt_ne_keyPrefix (keyPrefix : String) (index : Nat) (up : Position) :
    keyAt keyPrefix (index :: up) ≠ keyPrefix := by
  have hlonger (p : Position) : keyPrefix.length ≤ (keyAt keyPrefix p).length := by
    induction p with
    | nil => exact Nat.le_refl _
    | cons i p ih =>
        simp only [keyAt, String.length_append]
        omega
  intro h
  have hlength := congrArg String.length h
  have hup := hlonger up
  have hhyphen : "-".length = 1 := rfl
  simp only [keyAt, String.length_append, hhyphen] at hlength
  omega

theorem keyAt_injective (keyPrefix : String) : Function.Injective (keyAt keyPrefix) := by
  intro p q h
  induction p generalizing q with
  | nil =>
      cases q with
      | nil => rfl
      | cons j q => exact absurd h.symm (keyAt_ne_keyPrefix keyPrefix j q)
  | cons i p ih =>
      cases q with
      | nil => exact absurd h (keyAt_ne_keyPrefix keyPrefix i p)
      | cons j q =>
          obtain ⟨hup, hindex⟩ := segment_inj h
          rw [ih hup, hindex]

mutual

/-- The nodes of a tree with their positions, in document order. -/
def located (p : Position) : Hypertext.Node → List (Position × Hypertext.Node)
  | .root children => (p, .root children) :: locatedAll p 0 children
  | .element ⟨tag, properties, children, kind⟩ =>
      (p, .element ⟨tag, properties, children, kind⟩) :: locatedAll p 0 children
  | .text value => [(p, .text value)]
  | .raw value => [(p, .raw value)]

def locatedAll (p : Position) (index : Nat) :
    List Hypertext.Node → List (Position × Hypertext.Node)
  | [] => []
  | n :: rest => located (index :: p) n ++ locatedAll p (index + 1) rest

end

mutual

theorem suffix_of_mem_located (n : Hypertext.Node) (p : Position)
    {m : Position × Hypertext.Node} (hm : m ∈ located p n) : p <:+ m.1 := by
  cases n with
  | root children =>
      rw [located] at hm
      rcases List.mem_cons.mp hm with rfl | hm
      · exact List.suffix_rfl
      · obtain ⟨i, _, hi⟩ := suffix_of_mem_locatedAll children p 0 hm
        exact (List.suffix_cons i p).trans hi
  | element e =>
      obtain ⟨tag, properties, children, kind⟩ := e
      rw [located] at hm
      rcases List.mem_cons.mp hm with rfl | hm
      · exact List.suffix_rfl
      · obtain ⟨i, _, hi⟩ := suffix_of_mem_locatedAll children p 0 hm
        exact (List.suffix_cons i p).trans hi
  | text value =>
      obtain rfl := List.mem_singleton.mp hm
      exact List.suffix_rfl
  | raw value =>
      obtain rfl := List.mem_singleton.mp hm
      exact List.suffix_rfl

theorem suffix_of_mem_locatedAll (ns : List Hypertext.Node) (p : Position) (index : Nat)
    {m : Position × Hypertext.Node} (hm : m ∈ locatedAll p index ns) :
    ∃ i, index ≤ i ∧ i :: p <:+ m.1 := by
  cases ns with
  | nil => exact absurd hm List.not_mem_nil
  | cons n rest =>
      rw [locatedAll] at hm
      rcases List.mem_append.mp hm with hm | hm
      · exact ⟨index, Nat.le_refl _, suffix_of_mem_located n (index :: p) hm⟩
      · obtain ⟨i, hi, hsuffix⟩ := suffix_of_mem_locatedAll rest p (index + 1) hm
        exact ⟨i, by omega, hsuffix⟩

end

theorem position_not_mem_locatedAll (ns : List Hypertext.Node) (p : Position) (index : Nat) :
    p ∉ (locatedAll p index ns).map (·.1) := by
  intro hp
  obtain ⟨m, hm, heq⟩ := List.mem_map.mp hp
  obtain ⟨i, _, hsuffix⟩ := suffix_of_mem_locatedAll ns p index hm
  have hlength := hsuffix.length_le
  rw [heq, List.length_cons] at hlength
  omega

mutual

theorem nodup_located (n : Hypertext.Node) (p : Position) :
    ((located p n).map (·.1)).Nodup := by
  cases n with
  | root children =>
      rw [located, List.map_cons, List.nodup_cons]
      exact ⟨position_not_mem_locatedAll children p 0, nodup_locatedAll children p 0⟩
  | element e =>
      obtain ⟨tag, properties, children, kind⟩ := e
      rw [located, List.map_cons, List.nodup_cons]
      exact ⟨position_not_mem_locatedAll children p 0, nodup_locatedAll children p 0⟩
  | text value => simp [located]
  | raw value => simp [located]

theorem nodup_locatedAll (ns : List Hypertext.Node) (p : Position) (index : Nat) :
    ((locatedAll p index ns).map (·.1)).Nodup := by
  cases ns with
  | nil => exact List.nodup_nil
  | cons n rest =>
      rw [locatedAll, List.map_append, List.nodup_append]
      refine ⟨nodup_located n (index :: p), nodup_locatedAll rest p (index + 1), ?_⟩
      intro q hq q' hq' heq
      obtain ⟨m, hm, rfl⟩ := List.mem_map.mp hq
      obtain ⟨m', hm', rfl⟩ := List.mem_map.mp hq'
      -- Both positions end in `p`, but the next index differs.
      have hsuffix := suffix_of_mem_located n (index :: p) hm
      obtain ⟨i, hi, hsuffix'⟩ := suffix_of_mem_locatedAll rest p (index + 1) hm'
      rw [← heq] at hsuffix'
      have hsame : i :: p = index :: p :=
        (List.suffix_of_suffix_length_le hsuffix' hsuffix (by simp)).eq_of_length (by simp)
      have hindex := (List.cons.inj hsame).1
      omega

end

namespace Registry

variable {γ : Type} {r : Registry γ}

/-- Whether an element is made for a node: for texts and raw HTML only if there is a component
for them. -/
def makesElement (r : Registry γ) : Hypertext.Node → Bool
  | .root _ | .element _ => true
  | n => (r.override? n).isSome

end Registry

/-- Whether a component makes of all that it is given one element, whose tag it finds from the
tag, the kind, the key and the properties alone. -/
def Renames (c : Component) : Prop :=
  ∃ name : Option String → Option Doc.Kind → String → Properties → String,
    ∀ i : Input, (c i).outcome = (i.element (name i.tag i.kind i.key i.properties)).outcome

/-- Whether elements are made as they are and components only rename. -/
def Options.OnlyRenames (o : Options) : Prop :=
  o.factory = .plain ∧ ∀ e ∈ o.components.entries, Renames e.2

def elementKeys (o : Options) (ms : List (Position × Hypertext.Node)) : List String :=
  (ms.filter fun m => o.components.makesElement m.2).map fun m => keyAt o.keyPrefix m.1

variable {o : Options}

theorem elementKeys_cons {m : Position × Hypertext.Node} {ms : List (Position × Hypertext.Node)}
    (hm : o.components.makesElement m.2 = true) :
    elementKeys o (m :: ms) = keyAt o.keyPrefix m.1 :: elementKeys o ms := by
  simp [elementKeys, hm]

theorem elementKeys_append (ms ms' : List (Position × Hypertext.Node)) :
    elementKeys o (ms ++ ms') = elementKeys o ms ++ elementKeys o ms' := by
  simp [elementKeys]

theorem nodup_elementKeys {ms : List (Position × Hypertext.Node)} (h : (ms.map (·.1)).Nodup) :
    (elementKeys o ms).Nodup := by
  have hpositions : ((ms.filter fun m => o.components.makesElement m.2).map (·.1)).Nodup :=
    h.sublist (List.filter_sublist.map _)
  have hkeys := List.Nodup.map (keyAt_injective o.keyPrefix) hpositions
  rwa [List.map_map] at hkeys

theorem placed_eq_ok (h : o.OnlyRenames) {key : String} {n : Hypertext.Node}
    {properties : Properties} {children : List Keyed.Node} {own r : Keyed.Node}
    (hr : placed o key n properties children own = .ok r) :
    (o.components.override? n = none ∧ r = own) ∨
      ((o.components.override? n).isSome = true ∧
        ∃ tag, r = .element ⟨tag, some key, properties, children⟩) := by
  unfold placed at hr
  cases hfound : o.components.override? n with
  | none =>
      rw [hfound] at hr
      exact .inl ⟨rfl, (Except.ok.inj hr).symm⟩
  | some found =>
      obtain ⟨name, hname⟩ := h.2 _ (Registry.mem_of_override? hfound)
      rw [hfound] at hr
      dsimp only at hr
      rw [hname, h.1] at hr
      exact .inr ⟨rfl, _, (Except.ok.inj hr).symm⟩

theorem exists_element_of_placed (h : o.OnlyRenames) {key tag : String} {n : Hypertext.Node}
    {properties : Properties} {children : List Keyed.Node} {r : Keyed.Node}
    (hr : placed o key n properties children
      (.element (o.factory.create tag ⟨some key, properties⟩ children)) = .ok r) :
    ∃ tag, r = .element ⟨tag, some key, properties, children⟩ := by
  rw [h.1] at hr
  rcases placed_eq_ok h hr with ⟨_, hown⟩ | ⟨_, hrenamed⟩
  · exact ⟨tag, hown⟩
  · exact hrenamed

theorem keys_of_placed_element (h : o.OnlyRenames) {p : Position} {tag : String}
    {n : Hypertext.Node} {properties : Properties} {children : List Keyed.Node} {r : Keyed.Node}
    (hr : placed o (keyAt o.keyPrefix p) n properties children
      (.element (o.factory.create tag ⟨some (keyAt o.keyPrefix p), properties⟩ children)) = .ok r) :
    r.keys = keyAt o.keyPrefix p :: Keyed.keysOfAll children := by
  obtain ⟨tag, rfl⟩ := exists_element_of_placed h hr
  rfl

theorem keys_of_placed_leaf (h : o.OnlyRenames) {p : Position} {n : Hypertext.Node}
    {content r : Keyed.Node} (hcontent : content.keys = [])
    (hn : o.components.makesElement n = (o.components.override? n).isSome)
    (hr : placed o (keyAt o.keyPrefix p) n .empty [content] content = .ok r) :
    r.keys = elementKeys o [(p, n)] := by
  rcases placed_eq_ok h hr with ⟨hnone, rfl⟩ | ⟨hsome, tag, rfl⟩
  · have hmakes : o.components.makesElement n = false := by rw [hn, hnone]; rfl
    simp [elementKeys, hmakes, hcontent]
  · have hmakes : o.components.makesElement n = true := by rw [hn, hsome]
    simp [elementKeys, hmakes, Keyed.Node.keys, Keyed.Element.keys, Keyed.keysOfAll, hcontent]

mutual

theorem keys_rendered (h : o.OnlyRenames) (n : Hypertext.Node) (p : Position) {r : Keyed.Node}
    (hr : rendered o p n = .ok r) : r.keys = elementKeys o (located p n) := by
  cases n with
  | root children =>
      rw [rendered] at hr
      obtain ⟨content, hcontent, hr⟩ := bind_eq_ok.mp hr
      rw [keys_of_placed_element h hr, keys_renderedAll h children p 0 hcontent, located,
        elementKeys_cons rfl]
  | element e =>
      obtain ⟨tag, properties, children, kind⟩ := e
      rw [rendered] at hr
      obtain ⟨content, hcontent, hr⟩ := bind_eq_ok.mp hr
      rw [keys_of_placed_element h hr, keys_renderedAll h children p 0 hcontent, located,
        elementKeys_cons rfl]
  | text value =>
      rw [rendered] at hr
      exact keys_of_placed_leaf h rfl rfl hr
  | raw value =>
      rw [rendered] at hr
      exact keys_of_placed_leaf h rfl rfl hr

theorem keys_renderedAll (h : o.OnlyRenames) (ns : List Hypertext.Node) (p : Position)
    (index : Nat) {rs : List Keyed.Node} (hrs : renderedAll o p index ns = .ok rs) :
    Keyed.keysOfAll rs = elementKeys o (locatedAll p index ns) := by
  cases ns with
  | nil =>
      obtain rfl := Except.ok.inj hrs
      rfl
  | cons n rest =>
      rw [renderedAll] at hrs
      split at hrs
      · obtain ⟨r, hn, hrs⟩ := bind_eq_ok.mp hrs
        obtain ⟨others, hrest, hrs⟩ := bind_eq_ok.mp hrs
        obtain rfl := Except.ok.inj hrs
        rw [Keyed.keysOfAll, locatedAll, elementKeys_append, keys_rendered h n (index :: p) hn,
          keys_renderedAll h rest p (index + 1) hrest]
      · cases hrs

end

/-- With components that only rename, the keys of a rendered tree are those of the positions for
which an element is made, in document order, and no key occurs twice. -/
theorem keys_of_renderHypertext (h : o.OnlyRenames) {n : Hypertext.Node} {e : Keyed.Element}
    (he : (renderHypertext o n).outcome = .ok e) :
    e.keys = elementKeys o (located [] (.root n.rootChildren)) ∧ e.keys.Nodup := by
  have hkeys : e.keys = elementKeys o (located [] (.root n.rootChildren)) := by
    rw [outcome_renderHypertext] at he
    split at he
    · cases he
    next r hr =>
      obtain rfl := Except.ok.inj he
      exact keys_rendered h _ [] hr
    next other hother hr =>
      -- What becomes of a root is an element.
      rw [rendered] at hr
      obtain ⟨content, _, hr⟩ := bind_eq_ok.mp hr
      obtain ⟨tag, htag⟩ := exists_element_of_placed h hr
      exact absurd htag (hother _)
  refine ⟨hkeys, ?_⟩
  rw [hkeys]
  exact nodup_elementKeys (nodup_located _ [])

def spanning : Options where
  components := .ofList
    [(.kind .text, fun i => i.element "span"), (.tag "p", fun i => i.element i.key)]
  keyPrefix := "1-1"

def nestedRoot : Hypertext.Node :=
  .root [.element ⟨"p", .empty, [.raw "<b>", .text "a"], some .paragraph⟩, .root [.text "b"]]

theorem keys_nestedRoot :
    ∃ e, (renderHypertext spanning nestedRoot).outcome = .ok e ∧
      e.keys = ["1-1", "1-1-0", "1-1-0-1", "1-1-1", "1-1-1-0"] ∧ e.keys.Nodup := by
  have hrenames : spanning.OnlyRenames := by
    refine ⟨rfl, ?_⟩
    intro c hc
    rcases List.mem_cons.mp hc with rfl | hc
    · exact ⟨fun _ _ key _ => key, fun _ => rfl⟩
    · obtain rfl := List.mem_singleton.mp hc
      exact ⟨fun _ _ _ _ => "span", fun _ => rfl⟩
  have he : (renderHypertext spanning nestedRoot).outcome =
      .ok ⟨"div", some "1-1", .empty,
        [.element ⟨"1-1-0", some "1-1-0", .empty,
          [.raw "<b>", .element ⟨"span", some "1-1-0-1", .empty, [.text "a"]⟩]⟩,
        .element ⟨"div", some "1-1-1", .empty,
          [.element ⟨"span", some "1-1-1-0", .empty, [.text "b"]⟩]⟩]⟩ := by
    rw [outcome_renderHypertext]
    with_unfolding_all rfl
  obtain ⟨hkeys, hnodup⟩ := keys_of_renderHypertext hrenames he
  exact ⟨_, he, hkeys.trans (by decide +kernel), hnodup⟩

end KeyedMarkup.Render
