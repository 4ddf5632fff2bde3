import KeyedMarkup.Json.Numeral

/-!
# Numbers, dates and times in TOML

Which words are numbers, and which are dates, times or both. Only integers have a value here; of
the others it is enough to know that they are well formed.
-/

namespace KeyedMarkup.Toml.Scalar

/-- The digits of a word in which single underscores may stand between digits. -/
def digits? (digit? : Char → Option Nat) : List Char → Option (List Nat)
  | [] => none
  | [c] => (digit? c).map ([·])
  | c :: '_' :: rest => do return (← digit? c) :: (← digits? digit? rest)
  | c :: rest => do return (← digit? c) :: (← digits? digit? rest)

/-- The digit below the base that a character stands for. -/
def digitBelow? (base : Nat) (c : Char) : Option Nat :=
  let value :=
    if c.isDigit then c.toNat - '0'.toNat
    else if 'a' ≤ c && c ≤ 'z' then c.toNat - 'a'.toNat + 10
    else if 'A' ≤ c && c ≤ 'Z' then c.toNat - 'A'.toNat + 10
    else base
  if value < base then some value else none

private def valueOf (base : Nat) (digits : List Nat) : Nat :=
  digits.foldl (fun n d => base * n + d) 0

/-- Whether a number is negative, and the rest of its word. -/
def splitSign : List Char → Bool × List Char
  | '-' :: rest => (true, rest)
  | '+' :: rest => (false, rest)
  | cs => (false, cs)

/-- Decimal digits of which the first is no needless zero. -/
def wholeDigits? (cs : List Char) : Option (List Nat) :=
  match digits? (digitBelow? 10) cs with
  | some [d] => some [d]
  | some (0 :: _) => none
  | other => other

private def inBase (base : Nat) (cs : List Char) : Option Int :=
  (digits? (digitBelow? base) cs).map fun ds => (valueOf base ds : Int)

/-- An integer has at most 128 bits. -/
def inRange (n : Int) : Bool := -(Int.pow 2 127) ≤ n && n < Int.pow 2 128

def integer? (cs : List Char) : Option Int :=
  let value := match cs with
    | '0' :: 'x' :: rest => inBase 16 rest
    | '0' :: 'o' :: rest => inBase 8 rest
    | '0' :: 'b' :: rest => inBase 2 rest
    | _ =>
        let (negative, rest) := splitSign cs
        (wholeDigits? rest).map fun ds =>
          let n : Int := valueOf 10 ds
          if negative then -n else n
  value.filter inRange

/-- The exponent of ten that a word has after its mark. -/
private def exponent? (cs : List Char) : Option Int :=
  let (negative, rest) := splitSign cs
  (digits? (digitBelow? 10) rest).map fun ds =>
    let n : Int := valueOf 10 ds
    if negative then -n else n

/-- The number that the digits before and after the point and the exponent stand for. -/
private def numeral? (cs : List Char) : Option Json.Numeral :=
  let isMark (c : Char) : Bool := c == 'e' || c == 'E'
  let whole := cs.takeWhile fun c => c != '.' && !isMark c
  match cs.drop whole.length with
  | [] => none
  | '.' :: rest => do
      let fraction := rest.takeWhile fun c => !isMark c
      let exponent ← match rest.drop fraction.length with
        | [] => some 0
        | _ :: power => exponent? power
      return ⟨false, ← wholeDigits? whole, ← digits? (digitBelow? 10) fraction, exponent⟩
  | _ :: power => do return ⟨false, ← wholeDigits? whole, [], ← exponent? power⟩

/-- Whether a word is a number with a point or an exponent, within the range of numbers, or one of
the numbers that have no digits. -/
def isFloat (cs : List Char) : Bool :=
  let (_, rest) := splitSign cs
  rest == ['i', 'n', 'f'] || rest == ['n', 'a', 'n'] ||
    ((numeral? rest).bind fun n => n.value?).isSome

/-- The value of exactly `n` digits and what follows them. -/
def fixedDigits? (n : Nat) (cs : List Char) : Option (Nat × List Char) :=
  let head := cs.take n
  if head.length = n && head.all Char.isDigit then
    some (valueOf 10 (head.map fun c => c.toNat - '0'.toNat), cs.drop n)
  else none

private def expect? (c : Char) : List Char → Option (List Char)
  | d :: rest => if d = c then some rest else none
  | [] => none

def daysIn (year month : Nat) : Nat :=
  if month = 2 then
    if year % 4 = 0 && (year % 100 != 0 || year % 400 = 0) then 29 else 28
  else if month = 4 || month = 6 || month = 9 || month = 11 then 30
  else 31

/-- What follows a date. -/
def afterDate? (cs : List Char) : Option (List Char) := do
  let (year, cs) ← fixedDigits? 4 cs
  let (month, cs) ← fixedDigits? 2 (← expect? '-' cs)
  let (day, cs) ← fixedDigits? 2 (← expect? '-' cs)
  if 1 ≤ month && month ≤ 12 && 1 ≤ day && day ≤ daysIn year month then some cs else none

private def hourAndMinute? (cs : List Char) : Option (List Char) := do
  let (hour, cs) ← fixedDigits? 2 cs
  let (minute, cs) ← fixedDigits? 2 (← expect? ':' cs)
  if hour < 24 && minute < 60 then some cs else none

/-- What follows a time, which may leave out the seconds. -/
def afterTime? (cs : List Char) : Option (List Char) := do
  match ← hourAndMinute? cs with
  | ':' :: rest =>
      let (second, rest) ← fixedDigits? 2 rest
      if 60 < second then none
      else
        match rest with
        | '.' :: rest =>
            if (rest.takeWhile Char.isDigit).isEmpty then none
            else some (rest.dropWhile Char.isDigit)
        | rest => some rest
  | rest => some rest

/-- The distance from universal time. -/
def isOffset : List Char → Bool
  | ['Z'] | ['z'] => true
  | '+' :: rest | '-' :: rest => hourAndMinute? rest == some []
  | _ => false

def isDate (cs : List Char) : Bool := afterDate? cs == some []

/-- Whether a word is a date, a time, or a date and a time. -/
def isMoment (cs : List Char) : Bool :=
  match afterDate? cs with
  | none => afterTime? cs == some []
  | some [] => true
  | some (mark :: rest) =>
      (mark == 'T' || mark == 't' || mark == ' ') &&
        match afterTime? rest with
        | none => false
        | some [] => true
        | some offset => isOffset offset

end KeyedMarkup.Toml.Scalar
