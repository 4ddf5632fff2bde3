import KeyedMarkup.Number.Text
import KeyedMarkup.Proofs.Number.Order

/-!
# Whole numbers

A whole number below 2 ^ 53 has at most 53 digits in base two and so is a number of the format. It
has its own value and, below 10 ^ 15, is written with its own decimal digits. Of all of these only
one itself is within the least step from one.
-/

namespace KeyedMarkup.Binary64

theorem roundDiv_mul (q : ℕ) {den : ℕ} (h : 0 < den) : roundDiv (q * den) den = q := by
  unfold roundDiv
  rw [Nat.mul_div_cancel q h, Nat.mul_mod_left]
  simp [h.ne]

theorem log2_le {n : ℕ} (h : n < 2 ^ 53) (hpos : 0 < n) : n.log2 ≤ 52 := by
  have hlog : n.log2 < 53 := (Nat.log2_lt hpos.ne').mpr h
  omega

variable {n g : ℕ}

theorem lt_two_pow_of_shift (h : n < 2 ^ 53) (hpos : 0 < n) : n * 2 ^ (52 - n.log2) < 2 ^ 53 := by
  have hlog := log2_le h hpos
  have hpowers : n.log2 + 1 + (52 - n.log2) = 53 := by omega
  calc
    n * 2 ^ (52 - n.log2) < 2 ^ (n.log2 + 1) * 2 ^ (52 - n.log2) :=
      Nat.mul_lt_mul_of_pos_right Nat.lt_log2_self (Nat.two_pow_pos _)
    _ = 2 ^ 53 := by rw [← pow_add, hpowers]

theorem two_pow_le_shift (h : n < 2 ^ 53) (hpos : 0 < n) : 2 ^ 52 ≤ n * 2 ^ (52 - n.log2) := by
  have hlog := log2_le h hpos
  have hpowers : n.log2 + (52 - n.log2) = 52 := by omega
  calc
    2 ^ 52 = 2 ^ n.log2 * 2 ^ (52 - n.log2) := by rw [← pow_add, hpowers]
    _ ≤ n * 2 ^ (52 - n.log2) := Nat.mul_le_mul_right _ (Nat.log2_self_le hpos.ne')

/-- The digits of a whole number moved up to 53 digits, on the grid that belongs to them. -/
theorem mul_one_eq (h : n < 2 ^ 53) (hpos : 0 < n) (hg : g = n.log2 + 1022) :
    n * one = n * 2 ^ (52 - n.log2) * 2 ^ g := by
  obtain ⟨u, hu⟩ : ∃ u, u = 1074 := ⟨_, rfl⟩
  have hlog := log2_le h hpos
  have hpowers : u = 52 - n.log2 + g := by omega
  rw [one_eq hu, mul_assoc, ← pow_add, ← hpowers]

theorem bits_ofNat (h : n < 2 ^ 53) (hpos : 0 < n) (hg : g = n.log2 + 1022) :
    (ofNat n).bits.toNat = g * 2 ^ 52 + n * 2 ^ (52 - n.log2) := by
  have hlog := log2_le h hpos
  have hlog_one : Nat.log2 1 = 0 := by decide
  have hguess : n.log2 + 1074 - (Nat.log2 1 + 52) = g := by omega
  have hexact := mul_one_eq h hpos hg
  have hguessed : ¬n * one < 1 * Nat.pow 2 (g + 52) := by
    rw [hexact, one_mul, Nat.add_comm, not_lt]
    show 2 ^ (52 + g) ≤ _
    rw [pow_add]
    exact Nat.mul_le_mul_right _ (two_pow_le_shift h hpos)
  have hcut : roundDiv (n * one) (1 * Nat.pow 2 g) = n * 2 ^ (52 - n.log2) := by
    rw [hexact, one_mul]
    exact roundDiv_mul _ (Nat.two_pow_pos g)
  have hupper := lt_two_pow_of_shift h hpos
  have hsmall : ¬2047 * Nat.pow 2 52 ≤ g * Nat.pow 2 52 + n * 2 ^ (52 - n.log2) := by
    simp only [Nat.reducePow, Nat.pow_eq] at hupper ⊢
    omega
  unfold ofNat ofRatio
  rw [if_neg hpos.ne']
  dsimp only
  rw [hguess, if_neg hguessed]
  simp only [hcut]
  split
  next hlarge => exact absurd hlarge hsmall
  next =>
    show (UInt64.ofNat _).toNat = _
    rw [UInt64.toNat_ofNat', if_neg Bool.false_ne_true]
    apply Nat.mod_eq_of_lt
    simp only [Nat.reducePow, Nat.pow_eq] at hupper ⊢
    omega

theorem exponent_ofNat (h : n < 2 ^ 53) (hpos : 0 < n) (hg : g = n.log2 + 1022) :
    (ofNat n).exponent = g + 1 := by
  have hlog := log2_le h hpos
  have hlower := two_pow_le_shift h hpos
  have hupper := lt_two_pow_of_shift h hpos
  rw [exponent, bits_ofNat h hpos hg]
  simp only [Nat.reducePow, Nat.pow_eq] at hlower hupper ⊢
  omega

theorem significand_ofNat (h : n < 2 ^ 53) (hpos : 0 < n) :
    (ofNat n).significand = n * 2 ^ (52 - n.log2) := by
  have hlower := two_pow_le_shift h hpos
  have hupper := lt_two_pow_of_shift h hpos
  rw [significand, exponent_ofNat h hpos rfl, if_neg (Nat.succ_ne_zero _), fraction,
    bits_ofNat h hpos rfl]
  simp only [Nat.reducePow, Nat.pow_eq] at hlower hupper ⊢
  omega

theorem scaled_ofNat (h : n < 2 ^ 53) : (ofNat n).scaled = n * one := by
  rcases Nat.eq_zero_or_pos n with rfl | hpos
  · rw [Nat.zero_mul]
    rfl
  · obtain ⟨g, hg⟩ : ∃ g, g = n.log2 + 1022 := ⟨_, rfl⟩
    rw [scaled, significand_ofNat h hpos, grid, exponent_ofNat h hpos hg, Nat.add_sub_cancel,
      mul_one_eq h hpos hg]
    rfl

theorem negative_ofNat (h : n < 2 ^ 53) : (ofNat n).negative = false := by
  rcases Nat.eq_zero_or_pos n with rfl | hpos
  · decide
  · have hlog := log2_le h hpos
    have hupper := lt_two_pow_of_shift h hpos
    rw [negative, bits_ofNat h hpos rfl]
    simp only [Nat.reducePow, Nat.pow_eq, decide_eq_false_iff_not, not_le] at hupper ⊢
    omega

theorem isInfinite_ofNat (h : n < 2 ^ 53) : (ofNat n).isInfinite = false := by
  have hfinite := isFinite_ofNat (h.trans (by decide))
  rw [isFinite_eq_not_isInfinite (isNaN_ofNat n)] at hfinite
  simpa using hfinite

theorem value?_ofNat (h : n < 2 ^ 53) : (ofNat n).value? = some (n : EReal) := by
  rw [value?, isNaN_ofNat, if_neg Bool.false_ne_true, isInfinite_ofNat h,
    if_neg Bool.false_ne_true, real_of_nonneg (negative_ofNat h), scaled_ofNat h, Nat.cast_mul,
    mul_div_cancel_right₀ _ one_cast_pos.ne', EReal.coe_natCast]

-- The exponents are variables here, so that the powers are never computed.
theorem step_lt_one : 0 < Nat.pow 2 1022 ∧ Nat.pow 2 1022 < one := by
  obtain ⟨u, hu⟩ : ∃ u, u = 1074 := ⟨_, rfl⟩
  have hlt : 1022 < u := by omega
  rw [one_eq hu]
  generalize 1022 = v at hlt ⊢
  exact ⟨Nat.two_pow_pos v, Nat.pow_lt_pow_right (by decide) hlt⟩

/-- Among the whole numbers only one itself is not away from one. -/
theorem awayFromOne_ofNat (h : n < 2 ^ 53) : (ofNat n).awayFromOne = true ↔ n ≠ 1 := by
  obtain ⟨hpos, hlt⟩ := step_lt_one
  rw [awayFromOne, isNaN_ofNat, negative_ofNat h, isInfinite_ofNat h, scaled_ofNat h]
  generalize Nat.pow 2 1022 = step at hpos hlt ⊢
  generalize one = unit at hlt ⊢
  simp only [Bool.not_false, Bool.true_and, Bool.false_or, Bool.or_eq_true, decide_eq_true_iff]
  rcases n with _ | _ | n
  · simp [hlt]
  · simp
  · have hlarge : 2 * unit ≤ (n + 1 + 1) * unit := Nat.mul_le_mul_right _ (by omega)
    simp only [ne_eq]
    omega

theorem markupText_ofNat (h : n < 10 ^ 15) : (ofNat n).markupText = toString n := by
  have hexact : n < 2 ^ 53 := h.trans (by decide)
  have hwhole : (ofNat n).isWhole = true := by
    rw [isWhole, isFinite_ofNat (hexact.trans (by decide)), scaled_ofNat hexact,
      Nat.mul_mod_left]
    rfl
  have hsmall : (ofNat n).scaled < Nat.pow 10 15 * one := by
    rw [scaled_ofNat hexact]
    exact Nat.mul_lt_mul_of_pos_right h one_pos
  have hpart : (ofNat n).wholePart = n := by
    rw [wholePart, scaled_ofNat hexact, Nat.mul_div_cancel _ one_pos]
  rw [markupText, hwhole, decide_eq_true hsmall, negative_ofNat hexact, hpart, Bool.and_true,
    if_pos rfl, Bool.false_and, if_neg Bool.false_ne_true, String.empty_append]

end KeyedMarkup.Binary64
