import KeyedMarkup.Json.Numeral

/-!
# JSON tokens

A JSON text is scanned character by character into tokens. A text or a number that is well formed
but stands for no text or number, because of a surrogate without its partner or of its size, is
kept as an unusable token, which is an error only where its value is needed.
-/

namespace KeyedMarkup.Json

inductive Token where
  | openBrace
  | closeBrace
  | openBracket
  | closeBracket
  | colon
  | comma
  | null
  | flag (b : Bool)
  | number (x : Option Binary64)
  | text (s : Option String)
deriving DecidableEq, Inhabited

namespace Scan

/-- A quoted text so far: its characters, latest first, whether it is usable, and the first half
of a surrogate pair if it was written last. -/
structure Quoted where
  latest : List Char
  usable : Bool
  half : Option Nat
deriving Inhabited

namespace Quoted

def start : Quoted := ⟨[], true, none⟩

/-- Forgets a first half that got no second one, which makes the text unusable. -/
def settle (q : Quoted) : Quoted := ⟨q.latest, q.usable && q.half.isNone, none⟩

def add (q : Quoted) (c : Char) : Quoted :=
  let q := q.settle
  { q with latest := c :: q.latest }

/-- Adds a 16-bit unit, which may be half of a pair. -/
def addUnit (q : Quoted) (n : Nat) : Quoted :=
  if 0xD800 ≤ n && n < 0xDC00 then { q.settle with half := some n }
  else if 0xDC00 ≤ n && n < 0xE000 then
    match q.half with
    | some h =>
        { q with
          latest := Char.ofNat (0x10000 + (h - 0xD800) * 0x400 + (n - 0xDC00)) :: q.latest
          half := none }
    | none => { q with usable := false }
  else q.add (Char.ofNat n)

def token (q : Quoted) : Token :=
  let q := q.settle
  .text (if q.usable then some (String.ofList q.latest.reverse) else none)

end Quoted

/-- What of a numeral was read last. -/
inductive Part where
  | sign
  | zero
  | whole
  | point
  | fraction
  | mark
  | markSign
  | exponent
deriving DecidableEq

/-- A numeral so far, with its digits latest first. -/
structure Digits where
  part : Part
  negative : Bool
  whole : List Nat
  fraction : List Nat
  exponentNegative : Bool
  exponent : Nat

namespace Digits

/-- Whether the numeral may end here. -/
def complete (d : Digits) : Bool :=
  match d.part with
  | .zero | .whole | .fraction | .exponent => true
  | .sign | .point | .mark | .markSign => false

def numeral (d : Digits) : Numeral :=
  ⟨d.negative, d.whole.reverse, d.fraction.reverse,
    if d.exponentNegative then -(d.exponent : Int) else d.exponent⟩

private def digitOf (c : Char) : Nat := c.toNat - '0'.toNat

def start? (c : Char) : Option Digits :=
  if c = '-' then some ⟨.sign, true, [], [], false, 0⟩
  else if c = '0' then some ⟨.zero, false, [0], [], false, 0⟩
  else if c.isDigit then some ⟨.whole, false, [digitOf c], [], false, 0⟩
  else none

private def addDigit (d : Digits) (n : Nat) : Option Digits :=
  match d.part with
  | .sign => some { d with part := if n = 0 then .zero else .whole, whole := [n] }
  | .zero => none
  | .whole => some { d with whole := n :: d.whole }
  | .point | .fraction => some { d with part := .fraction, fraction := n :: d.fraction }
  | .mark | .markSign | .exponent =>
      some { d with part := .exponent, exponent := 10 * d.exponent + n }

/-- The numeral with one more character: `none` if it cannot follow, and `some none` if it is
no part of a numeral. -/
def add (d : Digits) (c : Char) : Option (Option Digits) :=
  if c.isDigit then (d.addDigit (digitOf c)).map some
  else
    match c, d.part with
    | '.', .zero | '.', .whole => some (some { d with part := .point })
    | 'e', .zero | 'e', .whole | 'e', .fraction | 'E', .zero | 'E', .whole | 'E', .fraction =>
        some (some { d with part := .mark })
    | '+', .mark => some (some { d with part := .markSign })
    | '-', .mark => some (some { d with part := .markSign, exponentNegative := true })
    | _, _ => if d.complete then some none else none

end Digits

/-- The token that has begun, if any. `hex` has read some of the four digits of a unit. -/
inductive Pending where
  | nothing
  | word (left : List Char) (token : Token)
  | text (q : Quoted)
  | escape (q : Quoted)
  | hex (q : Quoted) (digits : Nat) (value : Nat)
  | number (d : Digits)

end Scan

/-- A scan so far: the tokens, latest first, and the one that has begun. -/
structure Scan where
  tokens : List Token
  pending : Scan.Pending

namespace Scan

def start : Scan := ⟨[], .nothing⟩

def isSpace (c : Char) : Bool := c == ' ' || c == '\n' || c == '\r' || c == '\t'

private def hexDigit? (c : Char) : Option Nat :=
  if c.isDigit then some (c.toNat - '0'.toNat)
  else if 'a' ≤ c && c ≤ 'f' then some (c.toNat - 'a'.toNat + 10)
  else if 'A' ≤ c && c ≤ 'F' then some (c.toNat - 'A'.toNat + 10)
  else none

/-- The character that a letter after a backslash stands for. -/
def escaped? : Char → Option Char
  | '"' => some '"'
  | '\\' => some '\\'
  | '/' => some '/'
  | 'b' => some '\x08'
  | 'f' => some '\x0c'
  | 'n' => some '\n'
  | 'r' => some '\r'
  | 't' => some '\t'
  | _ => none

/-- Starts a token. -/
def begin (tokens : List Token) (c : Char) : Option Scan :=
  if isSpace c then some ⟨tokens, .nothing⟩
  else
    match c with
    | '\x7b' => some ⟨.openBrace :: tokens, .nothing⟩
    | '\x7d' => some ⟨.closeBrace :: tokens, .nothing⟩
    | '[' => some ⟨.openBracket :: tokens, .nothing⟩
    | ']' => some ⟨.closeBracket :: tokens, .nothing⟩
    | ':' => some ⟨.colon :: tokens, .nothing⟩
    | ',' => some ⟨.comma :: tokens, .nothing⟩
    | '"' => some ⟨tokens, .text .start⟩
    | 'n' => some ⟨tokens, .word ['u', 'l', 'l'] .null⟩
    | 't' => some ⟨tokens, .word ['r', 'u', 'e'] (.flag true)⟩
    | 'f' => some ⟨tokens, .word ['a', 'l', 's', 'e'] (.flag false)⟩
    | _ => (Digits.start? c).map fun d => ⟨tokens, .number d⟩

/-- Takes one more character; `none` if it cannot stand there. -/
def step (s : Scan) (c : Char) : Option Scan :=
  match s.pending with
  | .nothing => begin s.tokens c
  | .word [] _ => none
  | .word [last] token => if c = last then some ⟨token :: s.tokens, .nothing⟩ else none
  | .word (next :: left) token => if c = next then some ⟨s.tokens, .word left token⟩ else none
  | .text q =>
      if c = '"' then some ⟨q.token :: s.tokens, .nothing⟩
      else if c = '\\' then some ⟨s.tokens, .escape q⟩
      else if c.toNat < 0x20 then none
      else some ⟨s.tokens, .text (q.add c)⟩
  | .escape q =>
      if c = 'u' then some ⟨s.tokens, .hex q 0 0⟩
      else (escaped? c).map fun e => ⟨s.tokens, .text (q.add e)⟩
  | .hex q digits value =>
      match hexDigit? c with
      | none => none
      | some d =>
          let value := 16 * value + d
          some ⟨s.tokens, if digits < 3 then .hex q (digits + 1) value else .text (q.addUnit value)⟩
  | .number d =>
      match d.add c with
      | none => none
      | some (some d) => some ⟨s.tokens, .number d⟩
      | some none => begin (.number d.numeral.value? :: s.tokens) c

def run (s : Scan) : List Char → Option Scan
  | [] => some s
  | c :: cs =>
      match s.step c with
      | some s => s.run cs
      | none => none

/-- The tokens in order, unless a token is left open. -/
def finish (s : Scan) : Option (List Token) :=
  match s.pending with
  | .nothing => some s.tokens.reverse
  | .number d =>
      if d.complete then some (.number d.numeral.value? :: s.tokens).reverse else none
  | _ => none

end Scan

/-- The tokens of a text, if all of it can be scanned. -/
def tokens? (text : String) : Option (List Token) := (Scan.start.run text.toList).bind Scan.finish

end KeyedMarkup.Json
