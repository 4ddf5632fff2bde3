/-!
# Blank characters

The characters with the Unicode property White_Space, and trimming and splitting a text at them.
-/

namespace KeyedMarkup

/-- Whether a character has the property White_Space. -/
def isBlank (c : Char) : Bool :=
  let n := c.toNat
  (9 ≤ n && n ≤ 13) || n == 0x20 || n == 0x85 || n == 0xA0 || n == 0x1680 ||
    (0x2000 ≤ n && n ≤ 0x200A) || n == 0x2028 || n == 0x2029 || n == 0x202F || n == 0x205F ||
    n == 0x3000

/-- The characters without the blanks at both ends. -/
def trimBlanks (cs : List Char) : List Char :=
  ((cs.dropWhile isBlank).reverse.dropWhile isBlank).reverse

/-- The characters before the first blank and, if there is one, those after it. -/
def splitAtBlank : List Char → List Char × Option (List Char)
  | [] => ([], none)
  | c :: cs =>
      if isBlank c then ([], some cs)
      else
        let (head, tail) := splitAtBlank cs
        (c :: head, tail)

end KeyedMarkup
