import Mathlib.Algebra.Order.Floor.Semifield
import Mathlib.Data.EReal.Basic
import KeyedMarkup.Proofs.Number.Clamp

/-!
# The order of numbers

Every number but a NaN has a value, which is a real number or an infinity, and comparing a number
with a whole one compares the values. What is clamped to whole bounds is the bound that the value is
beyond, or else the whole part of the value, so clamping keeps the order of the values.
-/

namespace KeyedMarkup.Binary64

noncomputable def real (x : Binary64) : ℝ := (if x.negative then -1 else 1) * (x.scaled / one)

/-- The value of a number, unless it is a NaN. -/
noncomputable def value? (x : Binary64) : Option EReal :=
  if x.isNaN then none
  else if x.isInfinite then some (if x.negative then ⊥ else ⊤)
  else some x.real

variable {x y : Binary64} {a b : EReal}

theorem value?_cases (h : x.value? = some a) : x.isNaN = false ∧
    ((x.isInfinite = true ∧ a = if x.negative then ⊥ else ⊤) ∨
      (x.isInfinite = false ∧ a = x.real)) := by
  unfold value? at h
  split at h
  next => cases h
  next hnumber =>
    rw [Bool.not_eq_true] at hnumber
    split at h
    next hinfinite => exact ⟨hnumber, .inl ⟨hinfinite, (Option.some.inj h).symm⟩⟩
    next hfinite =>
      rw [Bool.not_eq_true] at hfinite
      exact ⟨hnumber, .inr ⟨hfinite, (Option.some.inj h).symm⟩⟩

theorem one_cast_pos : (0 : ℝ) < one := Nat.cast_pos.mpr one_pos

theorem scaled_pos_of_isInfinite (h : x.isInfinite = true) : 0 < x.scaled := by
  rw [isInfinite, Bool.and_eq_true, beq_iff_eq, beq_iff_eq] at h
  have hsignificand : 0 < x.significand := by
    rw [significand, h.1, if_neg (by decide)]
    exact Nat.add_pos_left (Nat.pow_pos (by decide)) _
  exact Nat.mul_pos hsignificand (Nat.pow_pos (by decide))

theorem isFinite_eq_not_isInfinite (hnumber : x.isNaN = false) :
    x.isFinite = !x.isInfinite := by
  cases hinfinite : x.isInfinite with
  | false => exact isFinite_of_not_isInfinite hnumber hinfinite
  | true =>
      rw [isInfinite, Bool.and_eq_true] at hinfinite
      rw [isFinite, bne, hinfinite.1]

theorem real_of_nonneg (h : x.negative = false) : x.real = x.scaled / one := by
  rw [real, h, if_neg Bool.false_ne_true, one_mul]

theorem real_of_negative (h : x.negative = true) : x.real = -(x.scaled / one) := by
  rw [real, h, if_pos rfl, neg_one_mul]

theorem real_nonpos (h : x.negative = true) : x.real ≤ 0 := by
  rw [real_of_negative h, neg_nonpos]
  positivity

theorem real_lt_natCast_iff (n : ℕ) : x.real < n ↔
    (x.negative = true ∧ (x.scaled ≠ 0 ∨ n ≠ 0)) ∨
      (x.negative = false ∧ x.scaled < n * one) := by
  cases hnegative : x.negative with
  | true =>
      have hzero : 0 ≤ (x.scaled : ℝ) / one := by positivity
      have hpos : 0 < (x.scaled : ℝ) / one ↔ x.scaled ≠ 0 := by
        rw [div_pos_iff_of_pos_right one_cast_pos, Nat.cast_pos, Nat.pos_iff_ne_zero]
      rw [real_of_negative hnegative]
      simp only [true_and, Bool.true_eq_false, false_and, or_false]
      constructor
      · intro h
        by_contra hboth
        rw [not_or, not_not, not_not] at hboth
        rw [hboth.1, hboth.2, Nat.cast_zero, zero_div, neg_zero] at h
        exact lt_irrefl 0 h
      · rintro (h | h)
        · have hn : (0 : ℝ) ≤ n := Nat.cast_nonneg n
          have hscaled := hpos.mpr h
          linarith
        · have hn : (0 : ℝ) < n := Nat.cast_pos.mpr (Nat.pos_of_ne_zero h)
          linarith
  | false =>
      rw [real_of_nonneg hnegative, div_lt_iff₀ one_cast_pos]
      simp only [Bool.false_eq_true, false_and, true_and, false_or]
      exact_mod_cast Iff.rfl

theorem natCast_lt_real_iff (n : ℕ) : (n : ℝ) < x.real ↔
    x.negative = false ∧ n * one < x.scaled := by
  cases hnegative : x.negative with
  | true =>
      have hreal := real_nonpos hnegative
      have hn : (0 : ℝ) ≤ n := Nat.cast_nonneg n
      simp only [Bool.true_eq_false, false_and, iff_false, not_lt]
      exact hreal.trans hn
  | false =>
      rw [real_of_nonneg hnegative, lt_div_iff₀ one_cast_pos]
      simp only [true_and]
      exact_mod_cast Iff.rfl

theorem ltNat_iff (h : x.value? = some a) (n : ℕ) : x.ltNat n = true ↔ a < n := by
  obtain ⟨hnumber, ⟨hinfinite, rfl⟩ | ⟨hinfinite, rfl⟩⟩ := value?_cases h
  · have hscaled := scaled_pos_of_isInfinite hinfinite
    cases hnegative : x.negative with
    | true => simp [ltNat, hnumber, hnegative, hscaled.ne', bot_lt_iff_ne_bot,
        EReal.natCast_ne_bot]
    | false => simp [ltNat, hnumber, hnegative, isFinite_eq_not_isInfinite hnumber, hinfinite]
  · rw [← EReal.coe_natCast, EReal.coe_lt_coe_iff, real_lt_natCast_iff]
    simp [ltNat, hnumber, isFinite_eq_not_isInfinite hnumber, hinfinite]

theorem gtNat_iff (h : x.value? = some a) (n : ℕ) : x.gtNat n = true ↔ n < a := by
  obtain ⟨hnumber, ⟨hinfinite, rfl⟩ | ⟨hinfinite, rfl⟩⟩ := value?_cases h
  · cases hnegative : x.negative with
    | true => simp [gtNat, hnumber, hnegative]
    | false => simp [gtNat, hnumber, hnegative, hinfinite, lt_top_iff_ne_top, EReal.natCast_ne_top]
  · rw [← EReal.coe_natCast, EReal.coe_lt_coe_iff, natCast_lt_real_iff]
    simp [gtNat, hnumber, hinfinite]

theorem wholePart_eq_floor (h : x.value? = some a) {low high : ℕ} (hlow : 0 < low)
    (hlower : ¬a < low) (hupper : ¬(high : EReal) < a) : x.wholePart = ⌊a.toReal⌋₊ := by
  obtain ⟨-, ⟨-, rfl⟩ | ⟨-, rfl⟩⟩ := value?_cases h
  · cases hnegative : x.negative with
    | true =>
        rw [hnegative, if_pos rfl, bot_lt_iff_ne_bot] at hlower
        exact absurd (EReal.natCast_ne_bot low) hlower
    | false =>
        rw [hnegative, if_neg Bool.false_ne_true, lt_top_iff_ne_top] at hupper
        exact absurd (EReal.natCast_ne_top high) hupper
  · cases hnegative : x.negative with
    | true =>
        rw [← EReal.coe_natCast, EReal.coe_lt_coe_iff] at hlower
        exact absurd ((real_nonpos hnegative).trans_lt (Nat.cast_pos.mpr hlow)) hlower
    | false => rw [EReal.toReal_coe, real_of_nonneg hnegative, Nat.floor_div_eq_div, wholePart]

/-- What is clamped is the bound that the value is beyond, or the whole part of the value. -/
theorem clampWhole_eq (h : x.value? = some a) {low : ℕ} (hlow : 0 < low) (high : ℕ) :
    x.clampWhole low high =
      if a < low then low else if high < a then high else ⌊a.toReal⌋₊ := by
  rw [clampWhole, (value?_cases h).1, if_neg Bool.false_ne_true]
  simp only [ltNat_iff h, gtNat_iff h]
  split
  next => rfl
  next hlower =>
    split
    next => rfl
    next hupper => exact wholePart_eq_floor h hlow hlower hupper

theorem clampWhole_of_natCast {n : ℕ} (h : x.value? = some n) {low high : ℕ} (hlow : 0 < low)
    (hlower : low ≤ n) (hupper : n ≤ high) : x.clampWhole low high = n := by
  rw [clampWhole_eq h hlow, if_neg (by exact_mod_cast hlower.not_gt),
    if_neg (by exact_mod_cast hupper.not_gt), ← EReal.coe_natCast, EReal.toReal_coe,
    Nat.floor_natCast]

theorem clampWhole_mono (hx : x.value? = some a) (hy : y.value? = some b) (hle : a ≤ b)
    {low high : ℕ} (hlow : 0 < low) (hbounds : low ≤ high) :
    x.clampWhole low high ≤ y.clampWhole low high := by
  obtain ⟨hlower, -⟩ := clampWhole_mem (value?_cases hy).1 hlow hbounds
  obtain ⟨-, hupper⟩ := clampWhole_mem (value?_cases hx).1 hlow hbounds
  by_cases hbelow : a < low
  · rwa [clampWhole_eq hx hlow, if_pos hbelow]
  have hnotbelow : ¬b < low := fun h => hbelow (hle.trans_lt h)
  by_cases habove : (high : EReal) < b
  · rwa [clampWhole_eq hy hlow, if_neg hnotbelow, if_pos habove]
  have hnotabove : ¬(high : EReal) < a := fun h => habove (h.trans_le hle)
  have hbot : a ≠ ⊥ := by
    rintro rfl
    exact hbelow (bot_lt_iff_ne_bot.mpr (EReal.natCast_ne_bot low))
  have htop : b ≠ ⊤ := by
    rintro rfl
    exact habove (lt_top_iff_ne_top.mpr (EReal.natCast_ne_top high))
  rw [clampWhole_eq hx hlow, if_neg hbelow, if_neg hnotabove, clampWhole_eq hy hlow,
    if_neg hnotbelow, if_neg habove]
  exact Nat.floor_mono (EReal.toReal_le_toReal hle hbot htop)

end KeyedMarkup.Binary64
