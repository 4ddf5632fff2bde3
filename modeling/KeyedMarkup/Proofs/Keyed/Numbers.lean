import KeyedMarkup.Proofs.Keyed.Written

/-!
# Numbers in markup

The text of a number has digits, a sign and a point, or it is one of the names `NaN`, `inf` and
`-inf`. None of these characters is escaped, so a number stands in an attribute as it is.
-/

namespace KeyedMarkup.Keyed.Markup

/-- The characters of numbers, digits apart. -/
def numberMarks : List Char := ['-', '.', 'N', 'a', 'i', 'n', 'f']

def IsNumberChar (c : Char) : Prop := c.isDigit = true ∨ c ∈ numberMarks

theorem isNumberChar_toString (n : Nat) : ∀ c ∈ (toString n).toList, IsNumberChar c := by
  rw [Nat.toString_eq_ofList_toDigits, String.toList_ofList]
  exact fun c hc => .inl (Nat.isDigit_of_mem_toDigits (by decide) (by decide) hc)

theorem isNumberChar_zeros (n : Nat) : ∀ c ∈ List.replicate n '0', IsNumberChar c := by
  intro c hc
  rw [List.eq_of_mem_replicate hc]
  exact .inl (by decide)

theorem isNumberChar_decimalText (d : Decimal) :
    ∀ c ∈ (NumberFormat.plain.decimalText d).toList, IsNumberChar c := by
  have hdigits := isNumberChar_toString d.digits
  have hpoint : IsNumberChar '.' := .inr (by decide)
  have hzero : IsNumberChar '0' := .inl (by decide)
  have hpositional (power : Int) : NumberFormat.plain.positional power = true := rfl
  have hwhole : (if NumberFormat.plain.pointZero then ".0" else "") = "" := rfl
  rw [NumberFormat.decimalText_eq]
  dsimp only
  rw [if_pos (hpositional _), hwhole, String.append_empty]
  split
  · simp only [String.toList_append, String.toList_ofList, List.forall_mem_append]
    exact ⟨hdigits, isNumberChar_zeros _⟩
  · split
    · simp only [String.toList_append, String.toList_ofList, List.forall_mem_append]
      exact ⟨⟨fun c hc => hdigits c (List.mem_of_mem_take hc), by simpa using hpoint⟩,
        fun c hc => hdigits c (List.mem_of_mem_drop hc)⟩
    · simp only [String.toList_append, String.toList_ofList, List.forall_mem_append]
      exact ⟨⟨by simp [hzero, hpoint], isNumberChar_zeros _⟩, hdigits⟩

theorem isNumberChar_markupText (x : Binary64) : ∀ c ∈ x.markupText.toList, IsNumberChar c := by
  have hsign (negative : Bool) : ∀ c ∈ (if negative then "-" else "").toList, IsNumberChar c := by
    cases negative with
    | true => exact List.forall_mem_singleton.mpr (.inr (by decide))
    | false => exact nofun
  have hname (name : String) (h : ∀ c ∈ name.toList, c ∈ numberMarks) :
      ∀ c ∈ name.toList, IsNumberChar c := fun c hc => .inr (h c hc)
  unfold Binary64.markupText
  split
  · rw [String.toList_append, List.forall_mem_append]
    exact ⟨hsign _, isNumberChar_toString _⟩
  · unfold Binary64.text
    split
    · exact hname _ (by simp [numberMarks])
    · split
      · split
        · exact hname _ (by simp [numberMarks])
        · exact hname _ (by simp [numberMarks])
      · rw [NumberFormat.finiteText, String.toList_append, List.forall_mem_append]
        exact ⟨hsign _, isNumberChar_decimalText _⟩

theorem not_isNumberChar_of_escaped : ∀ c ∈ escaped, ¬IsNumberChar c := by
  simp [escaped, IsNumberChar, numberMarks]

theorem escape_eq_self {s : String} (h : ∀ c ∈ s.toList, c ∉ escaped) : escape s = s := by
  apply String.toList_injective
  rw [toList_escape]
  generalize s.toList = cs at h
  induction cs with
  | nil => rfl
  | cons c cs ih =>
      obtain ⟨hc, hcs⟩ := List.forall_mem_cons.mp h
      rw [List.flatMap_cons, escapeChar_of_not_mem hc, ih hcs, List.singleton_append]

theorem escape_markupText (x : Binary64) : escape x.markupText = x.markupText :=
  escape_eq_self fun c hc hmem =>
    not_isNumberChar_of_escaped c hmem (isNumberChar_markupText x c hc)

end KeyedMarkup.Keyed.Markup
