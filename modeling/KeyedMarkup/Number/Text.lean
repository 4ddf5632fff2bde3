import KeyedMarkup.Number.Shortest

/-!
# Number texts

Three formats are written. In markup a whole number below 10 ^ 15 is an integer and any other
number its shortest decimal, never with an exponent. In a JSON text every number is its
shortest decimal, with a point, and with an exponent from 10 ^ 16 on and below 10 ^ (-5). A
description of a value has an exponent from 10 ^ 16 on and below 10 ^ (-4), without a plus sign.
-/

namespace KeyedMarkup

/-- The decisions of a decimal format: which powers of the first digit are written without an
exponent, whether a whole number keeps `.0`, whether an exponent keeps a plus sign, and which of
two nearest decimals is taken. -/
structure NumberFormat where
  positional : Int → Bool
  pointZero : Bool
  plusSign : Bool
  tie : Tie

namespace NumberFormat

/-- Plain decimals, whatever their size; a tie goes away from zero. -/
def plain : NumberFormat := ⟨fun _ => true, false, false, .up⟩

/-- JSON numbers, positional while the first digit stands for 10 ^ (-5) to 10 ^ 15. -/
def json : NumberFormat := ⟨fun p => -5 ≤ p && p ≤ 15, true, true, .even⟩

/-- Numbers in descriptions, positional while the first digit stands for 10 ^ (-4) to 10 ^ 15. -/
def described : NumberFormat := ⟨fun p => -4 ≤ p && p ≤ 15, true, false, .up⟩

private def zeros (n : Nat) : String := String.ofList (List.replicate n '0')

private def positionalText (f : NumberFormat) (digits : String) (power : Int) : String :=
  let point : Int := digits.length + power
  if 0 ≤ power then digits ++ zeros power.toNat ++ (if f.pointZero then ".0" else "")
  else if 0 < point then
    let ds := digits.toList
    String.ofList (ds.take point.toNat) ++ "." ++ String.ofList (ds.drop point.toNat)
  else "0." ++ zeros (-point).toNat ++ digits

private def exponentText (f : NumberFormat) (e : Int) : String :=
  if e < 0 then "e-" ++ toString (-e).toNat
  else (if f.plusSign then "e+" else "e") ++ toString e.toNat

private def scientificText (f : NumberFormat) (digits : String) (leading : Int) : String :=
  match digits.toList with
  | [] => ""
  | [d] => d.toString ++ f.exponentText leading
  | d :: ds => d.toString ++ "." ++ String.ofList ds ++ f.exponentText leading

def decimalText (f : NumberFormat) (d : Decimal) : String :=
  let digits := toString d.digits
  let leading : Int := digits.length - 1 + d.power
  if f.positional leading then f.positionalText digits d.power
  else f.scientificText digits leading

/-- All forms of a decimal, written out. -/
theorem decimalText_eq (f : NumberFormat) (d : Decimal) :
    f.decimalText d =
      let digits := toString d.digits
      let point : Int := digits.length + d.power
      let leading : Int := digits.length - 1 + d.power
      let exponent := if leading < 0 then "e-" ++ toString (-leading).toNat
        else (if f.plusSign then "e+" else "e") ++ toString leading.toNat
      if f.positional leading then
        if 0 ≤ d.power then
          digits ++ String.ofList (List.replicate d.power.toNat '0') ++
            (if f.pointZero then ".0" else "")
        else if 0 < point then
          String.ofList (digits.toList.take point.toNat) ++ "." ++
            String.ofList (digits.toList.drop point.toNat)
        else "0." ++ String.ofList (List.replicate (-point).toNat '0') ++ digits
      else
        match digits.toList with
        | [] => ""
        | [c] => c.toString ++ exponent
        | c :: cs => c.toString ++ "." ++ String.ofList cs ++ exponent := rfl

/-- The text of a finite number, with the sign of a negative zero. -/
def finiteText (f : NumberFormat) (x : Binary64) : String :=
  (if x.negative then "-" else "") ++ f.decimalText (x.shortest f.tie)

end NumberFormat

namespace Binary64

/-- The text of a number with its sign, named when it is not finite. -/
def text (f : NumberFormat) (x : Binary64) : String :=
  if x.isNaN then "NaN"
  else if x.isInfinite then if x.negative then "-inf" else "inf"
  else f.finiteText x

/-- The text of a number in an attribute. -/
def markupText (x : Binary64) : String :=
  if x.isWhole && x.scaled < Nat.pow 10 15 * one then
    (if x.negative && x.scaled != 0 then "-" else "") ++ toString x.wholePart
  else x.text .plain

end Binary64

end KeyedMarkup
