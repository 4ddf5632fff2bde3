import KeyedMarkup.Json.Printer
import KeyedMarkup.Json.Token

/-!
# Numbers in JSON texts

The text of a finite number is a numeral of JSON: a whole part without leading zeros, then a
fraction and an exponent, which both may be missing but have a digit if they are there. A numeral
is scanned to one token, whatever delimiter follows it.
-/

namespace KeyedMarkup

theorem exists_toDigits_eq_cons {n : Nat} (h : n ≠ 0) :
    ∃ c cs, Nat.toDigits 10 n = c :: cs ∧ c ≠ '0' := by
  induction n using Nat.strongRecOn with
  | ind n ih =>
      rw [Nat.toDigits_eq_if (by decide)]
      split
      next hsmall =>
        refine ⟨n.digitChar, [], rfl, ?_⟩
        intro hzero
        exact h (Nat.digitChar_eq_zero.mp hzero)
      next hlarge =>
        obtain ⟨c, cs, hcs, hc⟩ := ih (n / 10) (by omega) (by omega)
        exact ⟨c, cs ++ [(n % 10).digitChar], by rw [hcs, List.cons_append], hc⟩

namespace Json

def IsDigits (cs : List Char) : Prop := cs ≠ [] ∧ ∀ c ∈ cs, c.isDigit = true

/-- Whether a text has digits only and does not begin with a zero. -/
def IsPositive (cs : List Char) : Prop := IsDigits cs ∧ cs.head? ≠ some '0'

def IsWhole (cs : List Char) : Prop := cs = ['0'] ∨ IsPositive cs

def IsFraction (cs : List Char) : Prop := cs = [] ∨ ∃ ds, cs = '.' :: ds ∧ IsDigits ds

def IsExponent (cs : List Char) : Prop :=
  cs = [] ∨ ∃ sign ds, cs = 'e' :: sign :: ds ∧ (sign = '+' ∨ sign = '-') ∧ IsDigits ds

/-- Whether a text is a numeral without a sign. -/
def IsMagnitude (cs : List Char) : Prop :=
  ∃ whole fraction exponent, cs = whole ++ (fraction ++ exponent) ∧
    IsWhole whole ∧ IsFraction fraction ∧ IsExponent exponent

def IsNumeral (cs : List Char) : Prop :=
  IsMagnitude cs ∨ ∃ magnitude, cs = '-' :: magnitude ∧ IsMagnitude magnitude

theorem IsDigits.append {cs ds : List Char} (h : IsDigits cs) (hds : ∀ c ∈ ds, c.isDigit = true) :
    IsDigits (cs ++ ds) := by
  constructor
  · intro hnil
    exact h.1 (List.append_eq_nil_iff.mp hnil).1
  · rw [List.forall_mem_append]
    exact ⟨h.2, hds⟩

theorem IsDigits.of_append {cs ds : List Char} (h : IsDigits ds)
    (hcs : ∀ c ∈ cs, c.isDigit = true) : IsDigits (cs ++ ds) := by
  constructor
  · intro hnil
    exact h.1 (List.append_eq_nil_iff.mp hnil).2
  · rw [List.forall_mem_append]
    exact ⟨hcs, h.2⟩

theorem isDigit_of_mem_zeros {n : Nat} {c : Char} (h : c ∈ List.replicate n '0') :
    c.isDigit = true := by
  rw [List.eq_of_mem_replicate h]
  decide

theorem IsPositive.append {cs ds : List Char} (h : IsPositive cs)
    (hds : ∀ c ∈ ds, c.isDigit = true) : IsPositive (cs ++ ds) := by
  refine ⟨h.1.append hds, ?_⟩
  obtain ⟨c, rest, hcs⟩ := List.exists_cons_of_ne_nil h.1.1
  have hhead := h.2
  rw [hcs] at hhead ⊢
  exact hhead

theorem IsPositive.take {cs : List Char} (h : IsPositive cs) {k : Nat} (hk : k ≠ 0) :
    IsPositive (cs.take k) := by
  refine ⟨⟨?_, fun c hc => h.1.2 c (List.mem_of_mem_take hc)⟩, ?_⟩
  · intro hnil
    rcases List.take_eq_nil_iff.mp hnil with hnone | hnone
    · exact hk hnone
    · exact h.1.1 hnone
  · rw [List.head?_take, if_neg hk]
    exact h.2

theorem isWhole_singleton {c : Char} (h : c.isDigit = true) : IsWhole [c] := by
  by_cases hzero : c = '0'
  · exact .inl (by rw [hzero])
  · exact .inr ⟨⟨by simp, by simpa using h⟩, by simpa using hzero⟩

theorem isDigits_toString (n : Nat) : IsDigits (toString n).toList := by
  rw [Nat.toString_eq_ofList_toDigits, String.toList_ofList]
  exact ⟨Nat.toDigits_ne_nil, fun c hc => Nat.isDigit_of_mem_toDigits (by decide) (by decide) hc⟩

theorem isPositive_toString {n : Nat} (h : n ≠ 0) : IsPositive (toString n).toList := by
  refine ⟨isDigits_toString n, ?_⟩
  obtain ⟨c, cs, hcs, hc⟩ := exists_toDigits_eq_cons h
  rw [Nat.toString_eq_ofList_toDigits, String.toList_ofList, hcs]
  simpa using hc

theorem isExponent_text (e : Int) :
    IsExponent (if e < 0 then "e-" ++ toString (-e).toNat
      else (if NumberFormat.json.plusSign then "e+" else "e") ++ toString e.toNat).toList := by
  split
  · rw [String.toList_append]
    exact .inr ⟨'-', _, rfl, .inr rfl, isDigits_toString _⟩
  · rw [String.toList_append]
    exact .inr ⟨'+', _, rfl, .inl rfl, isDigits_toString _⟩

theorem isWhole_toString_append_zeros {n k : Nat} (h : n ≠ 0 ∨ k = 0) :
    IsWhole ((toString n).toList ++ List.replicate k '0') := by
  by_cases hn : n = 0
  · obtain rfl : k = 0 := h.resolve_left (absurd hn)
    subst hn
    exact .inl rfl
  · exact .inr ((isPositive_toString hn).append fun _ => isDigit_of_mem_zeros)

theorem isMagnitude_whole {n k : Nat} (h : n ≠ 0 ∨ k = 0) :
    IsMagnitude ((toString n).toList ++ List.replicate k '0' ++ ['.', '0']) := by
  have hfraction : IsFraction ['.', '0'] := .inr ⟨['0'], rfl, by simp, by simp⟩
  exact ⟨_, _, [], rfl, isWhole_toString_append_zeros h, hfraction, .inl rfl⟩

theorem isMagnitude_take_drop {ds : List Char} (h : IsPositive ds) {k : Nat} (hk : k ≠ 0)
    (hlength : k < ds.length) : IsMagnitude (ds.take k ++ '.' :: ds.drop k) := by
  have hdigits : IsDigits (ds.drop k) := by
    refine ⟨?_, fun c hc => h.1.2 c (List.mem_of_mem_drop hc)⟩
    intro hnil
    exact absurd (List.drop_eq_nil_iff.mp hnil) (Nat.not_le.mpr hlength)
  refine ⟨_, '.' :: ds.drop k, [], ?_, .inr (h.take hk), .inr ⟨_, rfl, hdigits⟩, .inl rfl⟩
  rw [List.append_nil]

theorem isMagnitude_zeros {ds : List Char} (h : IsDigits ds) (k : Nat) :
    IsMagnitude ('0' :: '.' :: (List.replicate k '0' ++ ds)) := by
  have hdigits : IsDigits (List.replicate k '0' ++ ds) :=
    h.of_append fun _ => isDigit_of_mem_zeros
  refine ⟨['0'], _, [], ?_, .inl rfl, .inr ⟨_, rfl, hdigits⟩, .inl rfl⟩
  rw [List.append_nil]
  rfl

theorem isMagnitude_scientific {c : Char} {cs exponent : List Char} (h : IsDigits (c :: cs))
    (hexponent : IsExponent exponent) :
    IsMagnitude (c :: ((if cs = [] then [] else '.' :: cs) ++ exponent)) := by
  have hwhole := isWhole_singleton (h.2 c List.mem_cons_self)
  refine ⟨[c], _, exponent, rfl, hwhole, ?_, hexponent⟩
  split
  next => exact .inl rfl
  next hne => exact .inr ⟨cs, rfl, hne, fun d hd => h.2 d (List.mem_cons_of_mem c hd)⟩

/-- A decimal is written as a numeral. A zero must be of the power zero, where no further zeros
are written after it. -/
theorem isMagnitude_decimalText {d : Decimal} (h : d.digits ≠ 0 ∨ d.power = 0) :
    IsMagnitude (NumberFormat.json.decimalText d).toList := by
  have hdigits := isDigits_toString d.digits
  have hexponent := isExponent_text ((toString d.digits).length - 1 + d.power)
  have hlength := String.length_toList (s := toString d.digits)
  rw [NumberFormat.decimalText_eq]
  dsimp only
  split
  · split
    next hpower =>
      simp only [String.toList_append, String.toList_ofList]
      exact isMagnitude_whole (by omega)
    next hpower =>
      have hpositive := isPositive_toString (n := d.digits) (by omega)
      split
      next hpoint =>
        simp only [String.toList_append, String.toList_ofList, List.append_assoc]
        exact isMagnitude_take_drop hpositive (by omega) (by omega)
      next =>
        simp only [String.toList_append, String.toList_ofList, List.append_assoc]
        exact isMagnitude_zeros hdigits _
  · have hfirst (c : Char) : c.toString.toList = [c] := String.toList_singleton c
    split
    next hnil => exact absurd hnil hdigits.1
    next c hsingle =>
      rw [hsingle] at hdigits
      have hscientific := isMagnitude_scientific hdigits hexponent
      rw [if_pos rfl, List.nil_append] at hscientific
      rw [String.toList_append, hfirst]
      exact hscientific
    next c cs hmore hcs =>
      rw [hcs] at hdigits
      have hscientific := isMagnitude_scientific hdigits hexponent
      rw [if_neg hmore] at hscientific
      simp only [String.toList_append, String.toList_ofList, List.append_assoc, hfirst]
      exact hscientific

theorem isNumeral_numberText {x : Binary64} (h : x.isFinite = true) :
    IsNumeral (numberText x).toList := by
  have hmagnitude : IsMagnitude (NumberFormat.json.decimalText (x.shortest .even)).toList := by
    apply isMagnitude_decimalText
    by_cases hzero : x.scaled = 0
    · exact .inr (by rw [Binary64.shortest, if_pos hzero])
    · exact .inl (Binary64.shortest_ne_zero hzero .even)
  have htext : (numberText x).toList = (if x.negative then "-" else "").toList ++
      (NumberFormat.json.decimalText (x.shortest .even)).toList := by
    simp only [numberText, if_pos h, NumberFormat.finiteText, String.toList_append,
      NumberFormat.json]
  rw [htext]
  generalize (NumberFormat.json.decimalText (x.shortest .even)).toList = cs at hmagnitude
  cases x.negative with
  | true => exact .inr ⟨cs, rfl, hmagnitude⟩
  | false => exact .inl hmagnitude

end Json

end KeyedMarkup
