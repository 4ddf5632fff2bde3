import KeyedMarkup.Number.Binary64

/-!
# Numerals

A numeral is the written form of a number, digit by digit. Its value is found in three steps, each
rounded: as many digits as fit into 64 bits are taken as a whole number, and the result is
multiplied or divided by the power of ten that is left, by more than one if the power is too large
for a number.
-/

namespace KeyedMarkup.Json

/-- Digits come first to last; the exponent is that of ten. -/
structure Numeral where
  negative : Bool
  whole : List Nat
  fraction : List Nat
  exponent : Int
deriving DecidableEq, Inhabited

namespace Numeral

/-- The number `m` followed by as many of the digits as stay below 2 ^ 64, and how many digits
are left out. -/
def takeDigits (m : Nat) : List Nat → Nat × Nat
  | [] => (m, 0)
  | d :: ds => if 10 * m + d < Nat.pow 2 64 then takeDigits (10 * m + d) ds else (m, ds.length + 1)

/-- The greatest power of ten that is a number. -/
def greatestPower : Nat := 308

private def tenPow (n : Nat) : Binary64 := .ofNat (Nat.pow 10 n)

/-- The number times a power of ten, unless it is too large. -/
def scale? (x : Binary64) (e : Int) : Option Binary64 :=
  if e.natAbs ≤ greatestPower then
    if 0 ≤ e then
      let y := x.mul (tenPow e.toNat)
      if y.isFinite then some y else none
    else some (x.div (tenPow e.natAbs))
  else if x.scaled = 0 then some x
  else if 0 ≤ e then none
  else scale? (x.div (tenPow greatestPower)) (e + greatestPower)
termination_by e.natAbs
decreasing_by simp_all [greatestPower]; omega

/-- The value of a numeral, unless it is beyond the range of numbers. -/
def value? (n : Numeral) : Option Binary64 :=
  let (w, beyond) := takeDigits 0 n.whole
  let (m, out) := takeDigits w n.fraction
  let e : Int := beyond - (n.fraction.length - out) + n.exponent
  (scale? (.ofNat m) e).map fun x => if n.negative then x.neg else x

end Numeral

end KeyedMarkup.Json
