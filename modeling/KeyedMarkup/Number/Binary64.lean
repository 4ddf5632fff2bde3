/-!
# Binary64 numbers

A number is the bit pattern of the IEEE 754 binary64 format, so two numbers are equal exactly
when their bits are. Everything about a finite number is read off in whole numbers: its
magnitude is `scaled` units of 2 ^ (-1074), the distance between the smallest numbers of the
format. Results are rounded once, to the nearest number of the format, ties to an even pattern.
-/

namespace KeyedMarkup

structure Binary64 where
  bits : UInt64
deriving DecidableEq, Inhabited

namespace Binary64

def negative (x : Binary64) : Bool := Nat.pow 2 63 ≤ x.bits.toNat

def exponent (x : Binary64) : Nat := x.bits.toNat / Nat.pow 2 52 % Nat.pow 2 11

def fraction (x : Binary64) : Nat := x.bits.toNat % Nat.pow 2 52

def isNaN (x : Binary64) : Bool := x.exponent == 2047 && x.fraction != 0

def isInfinite (x : Binary64) : Bool := x.exponent == 2047 && x.fraction == 0

def isFinite (x : Binary64) : Bool := x.exponent != 2047

/-- The significand of a finite number as a whole number of units. -/
def significand (x : Binary64) : Nat :=
  if x.exponent = 0 then x.fraction else Nat.pow 2 52 + x.fraction

/-- The unit of the significand is 2 ^ (`grid` - 1074). -/
def grid (x : Binary64) : Nat := x.exponent - 1

/-- The magnitude of a finite number in units of 2 ^ (-1074). -/
def scaled (x : Binary64) : Nat := x.significand * Nat.pow 2 x.grid

/-- The number one in units of 2 ^ (-1074). -/
def one : Nat := Nat.pow 2 1074

def isWhole (x : Binary64) : Bool := x.isFinite && x.scaled % one == 0

/-- The whole part of the magnitude of a finite number. -/
def wholePart (x : Binary64) : Nat := x.scaled / one

private def infinityBits : Nat := 2047 * Nat.pow 2 52

private def signed (neg : Bool) (bits : Nat) : Binary64 :=
  ⟨UInt64.ofNat (if neg then Nat.pow 2 63 + bits else bits)⟩

/-- The quotient rounded to the nearest whole number, a half to the even neighbour. -/
def roundDiv (num den : Nat) : Nat :=
  let q := num / den
  let twice := 2 * (num % den)
  if den < twice || (twice == den && q % 2 == 1) then q + 1 else q

/-- The number nearest to a quotient of whole numbers; too large a quotient gives infinity. -/
def ofRatio (neg : Bool) (num den : Nat) : Binary64 :=
  if num = 0 then signed neg 0
  else
    -- `num / den` lies strictly between 2 ^ (up - down - 1) and 2 ^ (up - down + 1)
    let up := num.log2 + 1074
    let down := den.log2 + 52
    let cut (g : Nat) : Nat := roundDiv (num * one) (den * Nat.pow 2 g)
    let guess := up - down
    let g := if num * one < den * Nat.pow 2 (guess + 52) then guess - 1 else guess
    let bits := g * Nat.pow 2 52 + cut g
    signed neg (if infinityBits ≤ bits then infinityBits else bits)

def ofNat (n : Nat) : Binary64 := ofRatio false n 1

def neg (x : Binary64) : Binary64 :=
  ⟨UInt64.ofNat ((x.bits.toNat + Nat.pow 2 63) % Nat.pow 2 64)⟩

/-- The product of two finite numbers, rounded. -/
def mul (x y : Binary64) : Binary64 :=
  ofRatio (x.negative != y.negative) (x.scaled * y.scaled) (one * one)

/-- The quotient of two finite numbers, the second not zero, rounded. -/
def div (x y : Binary64) : Binary64 :=
  ofRatio (x.negative != y.negative) x.scaled y.scaled

/-- Whether the number is less than a whole number; never true of a NaN. -/
def ltNat (x : Binary64) (n : Nat) : Bool :=
  !x.isNaN && ((x.negative && (x.scaled != 0 || n != 0)) ||
    (!x.negative && x.isFinite && x.scaled < n * one))

/-- Whether the number is greater than a whole number; never true of a NaN. -/
def gtNat (x : Binary64) (n : Nat) : Bool :=
  !x.isNaN && !x.negative && (x.isInfinite || n * one < x.scaled)

/-- Clamps to a range of whole numbers and cuts off the fraction; a NaN gives zero. -/
def clampWhole (x : Binary64) (low high : Nat) : Nat :=
  if x.isNaN then 0
  else if x.ltNat low then low
  else if x.gtNat high then high
  else x.wholePart

/-- Whether the number differs from one by more than 2 ^ (-52), the step between one and the
next number. A NaN differs from nothing in this sense. -/
def awayFromOne (x : Binary64) : Bool :=
  !x.isNaN && (x.negative || x.isInfinite ||
    x.scaled + Nat.pow 2 1022 < one || one + Nat.pow 2 1022 < x.scaled)

end Binary64

end KeyedMarkup
