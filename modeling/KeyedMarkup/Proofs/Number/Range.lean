import KeyedMarkup.Json.Numeral
import Mathlib.Algebra.Group.Nat.Defs

/-!
# Numbers that are read are finite

A quotient below 2 ^ 1022 is rounded to a finite number. The digits of a numeral stay below 2 ^ 64,
a product with a power of ten is given up when it is not finite, and a quotient by a power of ten
is far below the number that is divided. So a numeral has a finite value, if it has one.
-/

namespace KeyedMarkup

namespace Binary64

theorem isFinite_iff {x : Binary64} : x.isFinite = true ↔ x.exponent < 2047 := by
  have hexponent : x.exponent < 2048 := Nat.mod_lt _ (by decide)
  simp only [isFinite, bne_iff_ne, ne_eq]
  omega

theorem isFinite_of_bits (neg : Bool) {bits : Nat} (h : bits < 2047 * Nat.pow 2 52) :
    (Binary64.mk (UInt64.ofNat (if neg then Nat.pow 2 63 + bits else bits))).isFinite = true := by
  rw [isFinite_iff, exponent, UInt64.toNat_ofNat']
  simp only [Nat.reducePow, Nat.pow_eq] at h ⊢
  cases neg <;> simp <;> omega

theorem isFinite_neg {x : Binary64} (h : x.isFinite = true) : x.neg.isFinite = true := by
  have hbits := x.bits.toNat_lt
  rw [isFinite_iff, exponent] at h ⊢
  rw [neg, UInt64.toNat_ofNat']
  simp only [Nat.reducePow, Nat.pow_eq] at h hbits ⊢
  omega

-- The exponent is a variable here, so that the power is never computed.
theorem one_eq {u : Nat} (hu : u = 1074) : one = 2 ^ u := by
  subst hu
  unfold one
  generalize 1074 = u
  rfl

theorem one_pos : 0 < one := by
  obtain ⟨u, hu⟩ : ∃ u, u = 1074 := ⟨_, rfl⟩
  rw [one_eq hu]
  exact Nat.two_pow_pos u

theorem scaled_lt {x : Binary64} {g : Nat} (h : x.exponent ≤ g + 1) :
    x.scaled < 2 ^ (53 + g) := by
  have hgrid : x.grid ≤ g := by
    rw [grid]
    omega
  have hsignificand : x.significand < 2 ^ 53 := by
    have hfraction : x.fraction < 2 ^ 52 := Nat.mod_lt _ (by decide)
    rw [significand]
    simp only [Nat.reducePow, Nat.pow_eq] at hfraction ⊢
    split <;> omega
  calc
    x.scaled ≤ x.significand * 2 ^ g :=
      Nat.mul_le_mul_left _ (Nat.pow_le_pow_right (by decide) hgrid)
    _ < 2 ^ 53 * 2 ^ g := Nat.mul_lt_mul_of_pos_right hsignificand (Nat.two_pow_pos g)
    _ = 2 ^ (53 + g) := (Nat.pow_add 2 53 g).symm

theorem roundDiv_le {num den bound : Nat} (h : num < den * bound) : roundDiv num den ≤ bound := by
  have hquotient : num / den < bound := Nat.div_lt_of_lt_mul h
  unfold roundDiv
  dsimp only
  split <;> omega

theorem roundDiv_ofRatio_le {num den g : Nat} (hden : den ≠ 0)
    (hg : num.log2 + 1074 ≤ g + (den.log2 + 52)) :
    roundDiv (num * one) (den * Nat.pow 2 g) ≤ 2 ^ 53 := by
  obtain ⟨u, hu⟩ : ∃ u, u = 1074 := ⟨_, rfl⟩
  apply roundDiv_le
  calc
    num * one < 2 ^ (num.log2 + 1) * one :=
      Nat.mul_lt_mul_of_pos_right Nat.lt_log2_self one_pos
    _ = 2 ^ (num.log2 + 1 + u) := by rw [one_eq hu, ← Nat.pow_add]
    _ ≤ 2 ^ (den.log2 + g + 53) := Nat.pow_le_pow_right (by decide) (by omega)
    _ = 2 ^ den.log2 * 2 ^ g * 2 ^ 53 := by rw [Nat.pow_add, Nat.pow_add]
    _ ≤ den * 2 ^ g * 2 ^ 53 :=
      Nat.mul_le_mul_right _ (Nat.mul_le_mul_right _ (Nat.log2_self_le hden))

theorem roundDiv_ofRatio_pred_le {num den g : Nat}
    (hlow : num * one < den * Nat.pow 2 (g + 52)) :
    roundDiv (num * one) (den * Nat.pow 2 (g - 1)) ≤ 2 ^ 53 := by
  have hpow : 2 ^ (g + 52) ≤ 2 ^ (g - 1) * 2 ^ 53 := by
    rw [← Nat.pow_add]
    exact Nat.pow_le_pow_right (by decide) (by omega)
  apply roundDiv_le
  rw [Nat.mul_assoc]
  exact Nat.lt_of_lt_of_le hlow (Nat.mul_le_mul_left den hpow)

theorem isFinite_ofRatio (neg : Bool) {num den k : Nat} (hk : k ≤ 1022)
    (h : num < den * 2 ^ k) : (ofRatio neg num den).isFinite = true := by
  unfold ofRatio
  split
  · exact isFinite_of_bits neg (by decide)
  next hnum =>
    have hden : den ≠ 0 := by
      rintro rfl
      omega
    have hlog : num.log2 < den.log2 + 1 + k := by
      apply (Nat.log2_lt hnum).mpr
      rw [Nat.pow_add]
      exact Nat.lt_of_lt_of_le h (Nat.mul_le_mul_right _ (Nat.le_of_lt Nat.lt_log2_self))
    dsimp only
    generalize hguess : num.log2 + 1074 - (den.log2 + 52) = guess
    have hcut : roundDiv (num * one) (den * Nat.pow 2 guess) ≤ 2 ^ 53 :=
      roundDiv_ofRatio_le hden (by omega)
    have hbits {g : Nat} (hg : g ≤ guess)
        (hcut : roundDiv (num * one) (den * Nat.pow 2 g) ≤ 2 ^ 53) :
        g * Nat.pow 2 52 + roundDiv (num * one) (den * Nat.pow 2 g) < 2047 * Nat.pow 2 52 := by
      simp only [Nat.reducePow, Nat.pow_eq] at hcut ⊢
      omega
    split
    next hlow =>
      have hsmall := hbits (Nat.sub_le guess 1) (roundDiv_ofRatio_pred_le hlow)
      split
      next hlarge => exact absurd hlarge (Nat.not_le.mpr hsmall)
      next => exact isFinite_of_bits neg hsmall
    next =>
      have hsmall := hbits (Nat.le_refl guess) hcut
      split
      next hlarge => exact absurd hlarge (Nat.not_le.mpr hsmall)
      next => exact isFinite_of_bits neg hsmall

theorem isFinite_div {x y : Binary64} (hx : x.isFinite = true) (hy : 4 * one ≤ y.scaled) :
    (x.div y).isFinite = true := by
  obtain ⟨u, hu⟩ : ∃ u, u = 1074 := ⟨_, rfl⟩
  obtain ⟨g, hg⟩ : ∃ g, g = 2045 := ⟨_, rfl⟩
  obtain ⟨k, hk⟩ : ∃ k, k = 1022 := ⟨_, rfl⟩
  have hexponent := isFinite_iff.mp hx
  have hpowers : 53 + g = 2 + u + k := by omega
  apply isFinite_ofRatio _ (Nat.le_of_eq hk)
  calc
    x.scaled < 2 ^ (53 + g) := scaled_lt (by omega)
    _ = 4 * one * 2 ^ k := by rw [hpowers, one_eq hu, Nat.pow_add, Nat.pow_add]
    _ ≤ y.scaled * 2 ^ k := Nat.mul_le_mul_right _ hy

theorem isFinite_ofNat {n : Nat} (h : n < 2 ^ 64) : (ofNat n).isFinite = true := by
  apply isFinite_ofRatio false (k := 64) (by decide)
  rwa [Nat.one_mul]

end Binary64

namespace Json.Numeral

theorem four_le_tenPow (n : Fin 308) :
    4 * Binary64.one ≤ (Binary64.ofNat (Nat.pow 10 (n + 1))).scaled := by
  revert n
  decide +kernel

theorem takeDigits_lt {m : Nat} (hm : m < 2 ^ 64) (ds : List Nat) :
    (takeDigits m ds).1 < 2 ^ 64 := by
  induction ds generalizing m with
  | nil => exact hm
  | cons d ds ih =>
      rw [takeDigits]
      split
      next hroom => exact ih hroom
      next => exact hm

theorem isFinite_of_scale? {x y : Binary64} {e : Int} (hx : x.isFinite = true)
    (h : scale? x e = some y) : y.isFinite = true := by
  have hquotient {n : Nat} (hpos : 0 < n) (hle : n ≤ greatestPower) :
      (x.div (.ofNat (Nat.pow 10 n))).isFinite = true := by
    obtain ⟨m, rfl⟩ := Nat.exists_eq_succ_of_ne_zero (Nat.ne_of_gt hpos)
    exact Binary64.isFinite_div hx (four_le_tenPow ⟨m, hle⟩)
  rw [scale?] at h
  split at h
  next hpower =>
    split at h
    next hpositive =>
      dsimp only at h
      split at h
      next hfinite => exact Option.some.inj h ▸ hfinite
      next => cases h
    next hnegative =>
      obtain rfl := Option.some.inj h
      exact hquotient (by omega) hpower
  next =>
    split at h
    · exact Option.some.inj h ▸ hx
    · split at h
      · cases h
      · exact isFinite_of_scale? (hquotient (by decide) (Nat.le_refl _)) h
termination_by e.natAbs
decreasing_by simp_all [greatestPower]; omega

theorem isFinite_of_value? {n : Numeral} {x : Binary64} (h : n.value? = some x) :
    x.isFinite = true := by
  have hdigits : (takeDigits (takeDigits 0 n.whole).1 n.fraction).1 < 2 ^ 64 :=
    takeDigits_lt (takeDigits_lt (by decide) n.whole) n.fraction
  obtain ⟨y, hy, hx⟩ := Option.map_eq_some_iff.mp h
  have hfinite : y.isFinite = true := isFinite_of_scale? (Binary64.isFinite_ofNat hdigits) hy
  split at hx
  · exact hx ▸ Binary64.isFinite_neg hfinite
  · exact hx ▸ hfinite

end Json.Numeral

end KeyedMarkup
