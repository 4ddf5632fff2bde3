import KeyedMarkup.Number.Binary64

/-!
# Shortest decimals

The shortest decimal of a finite number is the one with the fewest digits among those that read
back as the number, and among these the nearest to it. For each count of digits only the two
neighbours of the number on that decimal grid can lie in the interval that reads back, so the
search tests these two and takes the first grid with a hit.
-/

namespace KeyedMarkup

/-- The decimal `digits` * 10 ^ `power`. -/
structure Decimal where
  digits : Nat
  power : Int
deriving DecidableEq, Inhabited

/-- Which of two equally near decimals is taken. -/
inductive Tie where
  | even
  | up
deriving DecidableEq

namespace Binary64

/-- The numbers that read back, in quarters of a unit: from `low` to `high`, the ends included
when the significand is even. Below a power of two the next number is half as far away. -/
structure Interval where
  low : Nat
  high : Nat
  closed : Bool

def interval (x : Binary64) : Interval :=
  let below := if x.fraction = 0 ∧ 1 < x.exponent then 1 else 2
  { low := 4 * x.scaled - below * Nat.pow 2 x.grid
    high := 4 * x.scaled + 2 * Nat.pow 2 x.grid
    closed := x.significand % 2 == 0 }

/-- Whether `p / q` quarters of a unit lie in the interval. -/
def Interval.holds (i : Interval) (p q : Nat) : Bool :=
  if i.closed then i.low * q ≤ p && p ≤ i.high * q else i.low * q < p && p < i.high * q

/-- Whether the magnitude is at least 10 ^ `e`. -/
def atLeastTenPow (x : Binary64) (e : Int) : Bool :=
  one * Nat.pow 10 e.toNat ≤ x.scaled * Nat.pow 10 (-e).toNat

/-- The power of ten of the first digit of a finite number other than zero. -/
def leadingPower (x : Binary64) : Int :=
  let guess := ((x.scaled.log2 : Int) - 1074) * 1233 / 4096
  if x.atLeastTenPow (guess + 1) then guess + 1
  else if x.atLeastTenPow guess then guess
  else guess - 1

/-- The better neighbour of the magnitude on the grid of 10 ^ `power`, if one reads back. -/
def neighbour? (x : Binary64) (tie : Tie) (power : Int) : Option Nat :=
  let scale := Nat.pow 10 (-power).toNat
  let unit := 4 * one * Nat.pow 10 power.toNat
  let value := 4 * x.scaled * scale
  let a := value / unit
  let holds (n : Nat) : Bool := x.interval.holds (n * unit) scale
  let gap := 2 * (value % unit)
  let upper := unit < gap || (gap == unit && (tie == .up || a % 2 == 1))
  match holds a, holds (a + 1) with
  | true, true => some (if upper then a + 1 else a)
  | true, false => some a
  | false, true => some (a + 1)
  | false, false => none

private def trim : Nat → Decimal → Decimal
  | 0, d => d
  | fuel + 1, d =>
      if d.digits % 10 = 0 ∧ d.digits ≠ 0 then trim fuel ⟨d.digits / 10, d.power + 1⟩ else d

private def search (x : Binary64) (tie : Tie) (power : Int) : Nat → Decimal
  | 0 => ⟨x.scaled, -1074⟩
  | fuel + 1 =>
      match x.neighbour? tie power with
      | some n => trim 20 ⟨n, power⟩
      | none => search x tie (power - 1) fuel

/-- The shortest decimal of the magnitude of a finite number. Seventeen digits always read
back, so the search ends within them. -/
def shortest (x : Binary64) (tie : Tie) : Decimal :=
  if x.scaled = 0 then ⟨0, 0⟩ else search x tie x.leadingPower 17

/-! The shortest decimal of a number other than zero is not zero. -/

private theorem low_interval_pos {x : Binary64} (h : x.scaled ≠ 0) : 0 < x.interval.low := by
  have hunit : 0 < Nat.pow 2 x.grid := Nat.pow_pos (by decide)
  have hsignificand : 0 < x.significand := by
    apply Nat.pos_of_ne_zero
    intro hzero
    rw [scaled, hzero, Nat.zero_mul] at h
    exact h rfl
  have hscaled : Nat.pow 2 x.grid ≤ x.scaled := Nat.le_mul_of_pos_left _ hsignificand
  rw [interval]
  dsimp only
  split <;> omega

private theorem neighbour?_ne_zero {x : Binary64} (h : x.scaled ≠ 0) {tie : Tie} {power : Int}
    {n : Nat} (hn : x.neighbour? tie power = some n) : n ≠ 0 := by
  have hlow := low_interval_pos h
  have hzero (q : Nat) (hq : 0 < q) (m : Nat) : x.interval.holds (0 * m) q = false := by
    have hpos : 0 < x.interval.low * q := Nat.mul_pos hlow hq
    rw [Interval.holds, Nat.zero_mul]
    split
    · have hlt : ¬x.interval.low * q ≤ 0 := by omega
      rw [decide_eq_false hlt, Bool.false_and]
    · have hlt : ¬x.interval.low * q < 0 := by omega
      rw [decide_eq_false hlt, Bool.false_and]
  have hscale : 0 < Nat.pow 10 (-power).toNat := Nat.pow_pos (by decide)
  rw [neighbour?] at hn
  dsimp only at hn
  generalize 4 * x.scaled * Nat.pow 10 (-power).toNat / (4 * one * Nat.pow 10 power.toNat) = a
    at hn
  have ha : x.interval.holds (a * (4 * one * Nat.pow 10 power.toNat))
      (Nat.pow 10 (-power).toNat) = true → a ≠ 0 := by
    intro hholds hnull
    rw [hnull, hzero _ hscale] at hholds
    cases hholds
  split at hn
  next hfirst _ =>
    obtain rfl := Option.some.inj hn
    have hpos := ha hfirst
    split <;> omega
  next hfirst _ => exact Option.some.inj hn ▸ ha hfirst
  next => exact Option.some.inj hn ▸ Nat.succ_ne_zero a
  next => cases hn

private theorem trim_ne_zero (fuel : Nat) {d : Decimal} (h : d.digits ≠ 0) :
    (trim fuel d).digits ≠ 0 := by
  induction fuel generalizing d with
  | zero => exact h
  | succ fuel ih =>
      rw [trim]
      split
      next hlast =>
        apply ih
        dsimp only
        omega
      next => exact h

private theorem search_ne_zero {x : Binary64} (h : x.scaled ≠ 0) (tie : Tie) (power : Int)
    (fuel : Nat) : (search x tie power fuel).digits ≠ 0 := by
  induction fuel generalizing power with
  | zero => exact h
  | succ fuel ih =>
      rw [search]
      split
      next n hn => exact trim_ne_zero 20 (neighbour?_ne_zero h hn)
      next => exact ih (power - 1)

theorem shortest_ne_zero {x : Binary64} (h : x.scaled ≠ 0) (tie : Tie) :
    (x.shortest tie).digits ≠ 0 := by
  rw [shortest, if_neg h]
  exact search_ne_zero h tie _ 17

end Binary64

end KeyedMarkup
