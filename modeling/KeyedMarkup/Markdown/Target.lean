import KeyedMarkup.Dict
import KeyedMarkup.Markdown.Html
import KeyedMarkup.Text.Entity
import KeyedMarkup.Text.Fold
import KeyedMarkup.Text.Punctuation

/-!
# Link targets

A link names its destination and title behind its text, or it names a label that a definition
elsewhere gives a destination and a title. Labels are compared with case folded and with all
space between words as one blank.
-/

namespace KeyedMarkup.Markdown

/-! ## Escapes and character references -/

private def hexDigitValue? (c : Char) : Option Nat :=
  if c.isDigit then some (c.toNat - '0'.toNat)
  else if 'a' ≤ c && c ≤ 'f' then some (c.toNat - 'a'.toNat + 10)
  else if 'A' ≤ c && c ≤ 'F' then some (c.toNat - 'A'.toNat + 10)
  else none

private def charOf (n : Nat) : Char :=
  if n = 0 then '\ufffd'
  else if n < 0xD800 || (0xE000 ≤ n && n < 0x110000) then Char.ofNat n
  else '\ufffd'

private def endedBy (cs : List Char) (n : Nat) (text : List Char) : Option (Nat × List Char) :=
  match cs.drop n with
  | ';' :: _ => some (n + 1, text)
  | _ => none

/-- The character reference after an ampersand: its length and the text it stands for. A number
has at most seven decimal or six hexadecimal digits. -/
def reference? (cs : List Char) : Option (Nat × List Char) :=
  let numeric (base skip : Nat) (digits : List Nat) : Option (Nat × List Char) :=
    if digits.isEmpty then none
    else endedBy cs (skip + digits.length) [charOf (digits.foldl (fun n d => base * n + d) 0)]
  let decimal (cs : List Char) : Option (Nat × List Char) :=
    numeric 10 1 (((cs.take 7).takeWhile Char.isDigit).filterMap hexDigitValue?)
  match cs with
  | '#' :: x :: after =>
      if x = 'x' || x = 'X' then
        numeric 16 2
          (((after.take 6).takeWhile fun c => (hexDigitValue? c).isSome).filterMap hexDigitValue?)
      else decimal (x :: after)
  | '#' :: _ => none
  | _ =>
      let name := cs.takeWhile isAsciiAlphanumeric
      match endedBy cs name.length [], entity? (String.ofList name) with
      | some (n, _), some text => some (n, text.toList)
      | _, _ => none

private def unescapeFrom (skip : Nat) : List Char → List Char
  | [] => []
  | c :: cs =>
      if 0 < skip then unescapeFrom (skip - 1) cs
      else
        match c, cs with
        | '\\', x :: _ =>
            if isAsciiPunctuation x then x :: unescapeFrom 1 cs else '\\' :: unescapeFrom 0 cs
        | '&', _ =>
            match reference? cs with
            | some (n, text) => text ++ unescapeFrom n cs
            | none => '&' :: unescapeFrom 0 cs
        | _, _ => if c = '\r' then unescapeFrom 0 cs else c :: unescapeFrom 0 cs

/-- The text that is meant by a text with escapes and character references. -/
def unescape (cs : List Char) : String := String.ofList (unescapeFrom 0 cs)

/-! ## Destinations, titles and labels -/

private def escapes (c : Char) (cs : List Char) : Bool :=
  c == '\\' && match cs with
    | x :: _ => isAsciiPunctuation x
    | [] => false

private def pointedEnd? (escaped : Bool) (taken : Nat) : List Char → Option Nat
  | [] => none
  | c :: cs =>
      if escaped then pointedEnd? false (taken + 1) cs
      else if c = '>' then some taken
      else if c = '<' || isBreak c then none
      else pointedEnd? (escapes c cs) (taken + 1) cs

private def bareEnd? (limit depth : Nat) (escaped : Bool) (taken : Nat) : List Char → Option Nat
  | [] => if depth = 0 then some taken else none
  | c :: cs =>
      if escaped then bareEnd? limit depth false (taken + 1) cs
      else if c.toNat ≤ 0x20 || (c == ')' && depth == 0) then
        if depth = 0 then some taken else none
      else if c = '(' then
        if limit < depth then none else bareEnd? limit (depth + 1) false (taken + 1) cs
      else if c = ')' then bareEnd? limit (depth - 1) false (taken + 1) cs
      else bareEnd? limit depth (escapes c cs) (taken + 1) cs

/-- A destination, in pointed brackets or bare with balanced parentheses, as it is written, and
its length. -/
def destination? (limit : Nat) (cs : List Char) : Option (List Char × Nat) :=
  match cs with
  | '<' :: inner => (pointedEnd? false 0 inner).map fun n => (inner.take n, n + 2)
  | _ => (bareEnd? limit 0 false 0 cs).map fun n => (cs.take n, n)

private def titleEnd? (opening closing : Char) (escaped : Bool) (taken : Nat) :
    List Char → Option Nat
  | [] => none
  | c :: cs =>
      if escaped then titleEnd? opening closing false (taken + 1) cs
      else if c = closing then some taken
      else if c = opening then none
      else titleEnd? opening closing (escapes c cs) (taken + 1) cs

/-- Without the spaces at the start of its lines. -/
private def dropIndents (atStart : Bool) : List Char → List Char
  | [] => []
  | c :: cs =>
      if atStart && (c == ' ' || c == '\t') then dropIndents true cs
      else c :: dropIndents (c == '\n') cs

/-- A title in quotation marks, apostrophes or parentheses, as it is written, and its length. -/
def title? (cs : List Char) : Option (List Char × Nat) :=
  match cs with
  | [] => none
  | c :: inner =>
      let closing := if c = '(' then ')' else c
      if c = '"' || c = '\'' || c = '(' then
        (titleEnd? c closing false 0 inner).map fun n => (dropIndents false (inner.take n), n + 2)
      else none

private def labelEnd? (escaped : Bool) (taken : Nat) : List Char → Option Nat
  | [] => none
  | c :: cs =>
      if escaped then labelEnd? false (taken + 1) cs
      else if c = ']' then some taken
      else if c = '[' || 999 ≤ taken then none
      else labelEnd? (c = '\\') (taken + 1) cs

private def isLabelSpace (c : Char) : Bool := isGap c || isBreak c

private def joinWords : List Char → List Char
  | [] => []
  | c :: cs =>
      if isLabelSpace c then
        match cs with
        | [] => []
        | d :: _ => if isLabelSpace d then joinWords cs else ' ' :: joinWords cs
      else c :: joinWords cs

/-- The form in which labels are compared. -/
def labelKey (cs : List Char) : String :=
  String.ofList (foldCase (joinWords (cs.dropWhile isLabelSpace)))

/-- The label before the next closing bracket, in the form for comparison, and its length with
the bracket. A label has no brackets in it, unless escaped, and is not blank. -/
def label? (cs : List Char) : Option (String × Nat) :=
  match labelEnd? false 0 cs with
  | some n =>
      let text := cs.take n
      if text.all isLabelSpace then none else some (labelKey text, n + 1)
  | none => none

/-! ## Targets -/

structure Target where
  url : String
  title : String
deriving DecidableEq, Inhabited

/-- The length of the space before the next word: gaps, with at most one line break. -/
def spaceLength (cs : List Char) : Nat :=
  let first := (cs.takeWhile isGap).length
  match cs.drop first with
  | '\n' :: after => first + 1 + (after.takeWhile isGap).length
  | _ => first

/-- How deep parentheses may nest in the destination of a link. -/
private def linkDepth : Nat := 32

/-- How deep parentheses may nest in the destination of a definition. -/
private def definitionDepth : Nat := 1

/-- The target in parentheses behind the text of a link, and its length. -/
def inlineTarget? (cs : List Char) : Option (Target × Nat) :=
  match cs with
  | '(' :: inner =>
      let before := spaceLength inner
      match destination? linkDepth (inner.drop before) with
      | none => none
      | some (url, n) =>
          let at₁ := before + n
          let at₂ := at₁ + spaceLength (inner.drop at₁)
          let (title, at₃) := match title? (inner.drop at₂) with
            | some (title, n) => (title, at₂ + n + spaceLength (inner.drop (at₂ + n)))
            | none => ([], at₂)
          match inner.drop at₃ with
          | ')' :: _ => some (⟨unescape url, unescape title⟩, at₃ + 2)
          | _ => none
  | _ => none

/-- A definition: the label, the target, and the number of lines it takes. -/
structure Definition where
  label : String
  target : Target
  lines : Nat

private def breaksIn (cs : List Char) : Nat := cs.count '\n'

/-- Whether nothing but gaps is left in the line. -/
private def lineEnds (cs : List Char) : Bool :=
  match skipGaps cs with
  | [] => true
  | c :: _ => c == '\n'

/-- The definition that some lines, joined by line breaks, start with. A title may begin on the
line after the destination; if it is not one, the definition ends before it. -/
def definition? (cs : List Char) : Option Definition :=
  match cs with
  | '[' :: inner =>
      match label? inner with
      | none => none
      | some (label, n) =>
          match inner.drop n with
          | ':' :: after =>
              let gap := spaceLength after
              match destination? definitionDepth (after.drop gap) with
              | none | some (_, 0) => none
              | some (url, m) =>
                  let at₁ := n + 2 + gap + m
                  let rest := after.drop (gap + m)
                  let lone : Definition := ⟨label, ⟨unescape url, ""⟩, breaksIn (cs.take at₁) + 1⟩
                  let space := spaceLength rest
                  let other := if lineEnds rest then some lone else none
                  if space = 0 && !lineEnds rest then none
                  else
                    match title? (rest.drop space) with
                    | none => other
                    | some (title, k) =>
                        if lineEnds (rest.drop (space + k)) then
                          some ⟨label, ⟨unescape url, unescape title⟩,
                            breaksIn (cs.take (at₁ + space + k)) + 1⟩
                        else other
          | _ => none
  | _ => none

/-- Targets by label; the first definition of a label counts. -/
abbrev Targets := Dict Target

/-- Adds the target of a definition, unless its label has one. -/
def Definition.addTo (d : Definition) (ts : Targets) : Targets :=
  if ts.contains d.label then ts else ts.insert d.label d.target

end KeyedMarkup.Markdown
