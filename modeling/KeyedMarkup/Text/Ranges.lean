/-!
# Tables of characters

Sets of characters and small maps are kept as texts of hexadecimal code points: items are parted
by blanks, and an item such as `2c2-2c5` is a range with both of its ends.
-/

namespace KeyedMarkup

private def hexDigit (c : Char) : Nat :=
  if c.isDigit then c.toNat - '0'.toNat else c.toNat - 'a'.toNat + 10

/-- The number that a text of lower-case hexadecimal digits stands for. -/
def hexValue (s : String) : Nat := s.toList.foldl (fun n c => 16 * n + hexDigit c) 0

/-- The items of the lines of a table. -/
def itemsOf (table : List String) : List String := table.flatMap (·.splitOn " ")

/-- The first and last code points of the ranges of a table. -/
def rangesOf (table : List String) : Array (Nat × Nat) :=
  ((itemsOf table).map fun item =>
    match item.splitOn "-" with
    | [low, high] => (hexValue low, hexValue high)
    | _ => (hexValue item, hexValue item)).toArray

/-- Whether a character lies in one of the ranges. -/
def inRanges (ranges : Array (Nat × Nat)) (c : Char) : Bool :=
  ranges.any fun r => r.1 ≤ c.toNat && c.toNat ≤ r.2

end KeyedMarkup
