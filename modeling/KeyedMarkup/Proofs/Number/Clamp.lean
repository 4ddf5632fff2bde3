import KeyedMarkup.Proofs.Number.Range

/-!
# Numbers within bounds

A quotient is rounded to a number or to infinity, never to a NaN. Of everything but a NaN a whole
number between two bounds is left when it is clamped to them.
-/

namespace KeyedMarkup.Binary64

theorem isNaN_of_isFinite {x : Binary64} (h : x.isFinite = true) : x.isNaN = false := by
  rw [isFinite, bne_iff_ne] at h
  rw [isNaN, beq_false_of_ne h, Bool.false_and]

theorem isNaN_of_bits (neg : Bool) {bits : Nat} (h : bits ≤ 2047 * Nat.pow 2 52) :
    (Binary64.mk (UInt64.ofNat (if neg then Nat.pow 2 63 + bits else bits))).isNaN = false := by
  rcases Nat.lt_or_eq_of_le h with hlt | rfl
  · exact isNaN_of_isFinite (isFinite_of_bits neg hlt)
  · cases neg <;> decide

theorem isNaN_ofRatio (neg : Bool) (num den : Nat) : (ofRatio neg num den).isNaN = false := by
  have hcap (bits : Nat) :
      (if 2047 * Nat.pow 2 52 ≤ bits then 2047 * Nat.pow 2 52 else bits) ≤ 2047 * Nat.pow 2 52 := by
    split
    · exact Nat.le_refl _
    next hsmall => exact Nat.le_of_not_le hsmall
  unfold ofRatio
  by_cases hnum : num = 0
  · rw [if_pos hnum]
    exact isNaN_of_bits neg (Nat.zero_le _)
  · rw [if_neg hnum]
    exact isNaN_of_bits neg (hcap _)

theorem isNaN_ofNat (n : Nat) : (ofNat n).isNaN = false := isNaN_ofRatio false n 1

theorem isFinite_of_not_isInfinite {x : Binary64} (hnumber : x.isNaN = false)
    (h : x.isInfinite = false) : x.isFinite = true := by
  rw [isNaN] at hnumber
  rw [isInfinite] at h
  rw [isFinite]
  cases hfraction : x.fraction == 0 <;> simp_all

theorem ltNat_eq_false {x : Binary64} (hnumber : x.isNaN = false) {low : Nat} (hlow : 0 < low)
    (h : x.ltNat low = false) :
    x.negative = false ∧ (x.isFinite = true → low * one ≤ x.scaled) := by
  have hcases : x.negative = false ∧
      (x.negative = false → x.isFinite = true → low * one ≤ x.scaled) := by
    simpa [ltNat, hnumber, Nat.ne_of_gt hlow] using h
  exact ⟨hcases.1, hcases.2 hcases.1⟩

theorem gtNat_eq_false {x : Binary64} (hnumber : x.isNaN = false) (hpositive : x.negative = false)
    {high : Nat} (h : x.gtNat high = false) :
    x.isInfinite = false ∧ x.scaled ≤ high * one := by
  simpa [gtNat, hnumber, hpositive] using h

theorem clampWhole_mem {x : Binary64} (hnumber : x.isNaN = false) {low high : Nat}
    (hlow : 0 < low) (hle : low ≤ high) :
    low ≤ x.clampWhole low high ∧ x.clampWhole low high ≤ high := by
  unfold clampWhole
  rw [hnumber, if_neg Bool.false_ne_true]
  split
  next => exact ⟨Nat.le_refl low, hle⟩
  next hbelow =>
    split
    next => exact ⟨hle, Nat.le_refl high⟩
    next habove =>
      rw [Bool.not_eq_true] at hbelow habove
      obtain ⟨hpositive, hlower⟩ := ltNat_eq_false hnumber hlow hbelow
      obtain ⟨hbounded, hupper⟩ := gtNat_eq_false hnumber hpositive habove
      have hfinite := isFinite_of_not_isInfinite hnumber hbounded
      exact ⟨(Nat.le_div_iff_mul_le one_pos).mpr (hlower hfinite),
        Nat.div_le_of_le_mul (Nat.mul_comm high one ▸ hupper)⟩

end KeyedMarkup.Binary64
