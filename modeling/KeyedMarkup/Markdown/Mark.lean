import KeyedMarkup.Doc.Event
import KeyedMarkup.Markdown.Html

/-!
# Marks at the start of a line

What a line starts with decides what it is: a thematic break, a heading, a fence, a list item, a
quote, or the delimiter row of a table. Each mark is recognized by its own rule.
-/

namespace KeyedMarkup.Markdown

/-- At least three of one of the characters `*`, `-` and `_`, with any spaces between them. -/
def isThematicBreak (cs : List Char) : Bool :=
  match cs with
  | [] => false
  | c :: _ =>
      (c == '*' || c == '-' || c == '_') && cs.all (fun x => x == c || x == ' ' || x == '\t') &&
        3 ≤ cs.count c

/-- One to six number signs, then a gap or nothing. -/
def headingLevel? (cs : List Char) : Option Nat :=
  let level := (cs.takeWhile (· == '#')).length
  if 1 ≤ level && level ≤ 6 &&
      (match cs.drop level with
        | [] => true
        | c :: _ => isGap c) then some level
  else none

/-- A line of equals signs or hyphens under a heading. -/
def underlineLevel? (cs : List Char) : Option Nat :=
  match cs with
  | c :: _ =>
      if (c == '=' || c == '-') && isBlankRest (cs.dropWhile (· == c)) then
        some (if c == '=' then 1 else 2)
      else none
  | [] => none

/-- The fence of a code block: its character and length, and what follows it. -/
structure Fence where
  mark : Char
  length : Nat
  info : List Char

/-- At least three backticks or tildes. What follows backticks has no backtick in it. -/
def fence? (cs : List Char) : Option Fence :=
  match cs with
  | [] => none
  | c :: _ =>
      let length := (cs.takeWhile (· == c)).length
      let info := cs.drop length
      if (c == '~' || (c == '\x60' && !info.contains '\x60')) && 3 ≤ length then
        some ⟨c, length, info⟩
      else none

/-- Whether a line ends a fenced block: at least as long a fence and nothing but spaces. -/
def Fence.closedBy (f : Fence) (cs : List Char) : Bool :=
  f.length ≤ (cs.takeWhile (· == f.mark)).length &&
    (cs.dropWhile (· == f.mark)).all (· == ' ')

/-- The mark of a list item: the character that tells lists apart, the number of an ordered item,
and how many columns its content is indented. -/
structure ItemMark where
  kind : Char
  number : Nat
  indent : Nat
deriving Inhabited

def isBullet (c : Char) : Bool := c == '-' || c == '+' || c == '*'

private def numberOf (digits : List Char) : Nat :=
  digits.foldl (fun n d => 10 * n + (d.toNat - '0'.toNat)) 0

/-- A number of up to nine digits with the character after it. -/
private def numberMark? (cs : List Char) : Option (Nat × Nat × Char) :=
  let digits := cs.takeWhile Char.isDigit
  if 1 ≤ digits.length && digits.length ≤ 9 then
    match cs.drop digits.length with
    | c :: _ => if c == '.' || c == ')' then some (numberOf digits, digits.length + 1, c) else none
    | [] => none
  else none

/-- One column of space after the mark, or the end of the line. -/
private def afterMark? (c : Cursor) : Option Cursor :=
  match c.takeExactly? 1 with
  | some c => some c
  | none => if c.atEnd then some c else none

/-- The mark of a list item after `outer` columns of indent, and the place after it. Content that
starts five or more columns after the mark is indented code, one column after the mark. -/
def itemMark? (c : Cursor) (outer : Nat) : Option (ItemMark × Cursor) :=
  let finish (kind : Char) (number width : Nat) : Option (ItemMark × Cursor) :=
    (afterMark? ⟨c.rest.drop width, c.column + width, c.spare⟩).map fun after =>
      let indent := outer + width + 1
      if isBlankRest after.rest then (⟨kind, number, indent⟩, after)
      else
        let (more, inner) := after.takeColumns 4
        if more < 4 then (⟨kind, number, indent + more⟩, inner) else (⟨kind, number, indent⟩, after)
  match c.rest with
  | [] => none
  | x :: _ =>
      if isBullet x then if isThematicBreak c.rest then none else finish x 0 1
      else
        match numberMark? c.rest with
        | some (number, width, delimiter) => finish delimiter number width
        | none => none

/-- The mark of a list item where a paragraph might go on: whether it is a bullet or has the
number one, and what follows it. -/
def interruptingItem? (cs : List Char) : Option (Bool × List Char) :=
  let check (first : Bool) (after : List Char) : Option (Bool × List Char) :=
    match after with
    | [] => some (first, [])
    | c :: _ => if c == ' ' || c == '\t' then some (first, after) else none
  match cs with
  | [] => none
  | x :: after =>
      if isBullet x then check true after
      else
        match numberMark? cs with
        | some (number, width, _) => check (number == 1) (cs.drop width)
        | none => none

/-- The mark of a quote, with one column of space after it if there is one. -/
def quoteMark? (c : Cursor) : Option Cursor := (c.take? '>').map fun c => (c.takeColumns 1).2

/-- The names of alerts, which mark a quote by its first line. -/
private def alertNames : List String := ["note", "tip", "important", "warning", "caution"]

/-- Whether the first line of a quote is the name of an alert in brackets. -/
def isAlert (cs : List Char) : Bool :=
  match cs with
  | '[' :: '!' :: after =>
      let name := after.takeWhile isAsciiAlpha
      alertNames.contains (String.ofList (name.map Char.toLower)) &&
        match after.drop name.length with
        | ']' :: rest => isBlankRest rest
        | _ => false
  | _ => false

/-- The mark of a task at the start of a list item: whether it is checked, and the place after it,
where a gap or the line end must stand. -/
def taskMark? (c : Cursor) (lineEnds : Bool) : Option (Bool × Cursor) :=
  let c := (c.takeColumns 3).2
  match c.rest with
  | '[' :: x :: ']' :: after =>
      let follows := match after with
        | [] => lineEnds
        | y :: _ => isGap y
      if follows then
        let place : Cursor := ⟨after, c.column + 3, 0⟩
        if isGap x then some (false, place)
        else if x == 'x' || x == 'X' then some (true, place)
        else none
      else none
  | _ => none

/-! ## Tables -/

/-- The delimiter row so far: its columns, latest first, the column that is being read, whether
anything of it was read, and what was met. -/
private structure Delimiters where
  columns : List (Option Doc.Align)
  current : Option Doc.Align
  fresh : Bool
  pipe : Bool
  hyphen : Bool
  hyphenInColumn : Bool

private def Delimiters.step (d : Delimiters) (c : Char) : Option Delimiters :=
  match c with
  | ' ' => some d
  | ':' =>
      let current := match d.fresh, d.current with
        | true, none => some Doc.Align.left
        | false, some .left => some .center
        | false, none => some .right
        | _, other => other
      some { d with current, fresh := false }
  | '-' => some { d with fresh := false, hyphen := true, hyphenInColumn := true }
  | '|' =>
      if d.hyphenInColumn then
        some ⟨d.current :: d.columns, none, true, true, d.hyphen, false⟩
      else none
  | _ => none

private def Delimiters.run (d : Delimiters) : List Char → Option Delimiters
  | [] => some d
  | c :: cs => (d.step c).bind (·.run cs)

/-- The alignments of the columns that a delimiter row names. -/
def delimiterRow? (c : Cursor) : Option (List (Option Doc.Align)) :=
  let (indent, c) := c.takeColumns 4
  if 3 < indent || c.atEnd then none
  else
    let (pipe, cs) := match c.rest with
      | '|' :: cs => (true, cs)
      | cs => (false, cs)
    match (Delimiters.mk [] none true pipe false false).run cs with
    | none => none
    | some d =>
        if d.pipe && d.hyphen then
          some (if d.fresh then d.columns else d.current :: d.columns).reverse
        else none

/-- The pipes of a line that are not escaped, and what follows the last of them. -/
private def countPipes (pipes : Nat) (escaped : Bool) (last : List Char) :
    List Char → Nat × List Char
  | [] => (pipes, last)
  | c :: cs =>
      if c = '|' && !escaped then countPipes (pipes + 1) false cs cs
      else countPipes pipes (c = '\\' && !escaped) last cs

def pipeCount (cs : List Char) : Nat := (countPipes 0 false [] cs).1

/-- How many cells a header row has. -/
def headerCells (cs : List Char) : Nat :=
  let (pipes, afterLast) := countPipes 0 false (cs.drop 1) cs
  let pipes := if (skipGaps cs).head? == some '|' then pipes - 1 else pipes
  if isBlankRest afterLast then pipes else pipes + 1

/-- The text of the first cell of a row and what follows it, from the next pipe on. A backslash
before a pipe makes it part of the text, unless it is escaped itself. -/
private def cellText (latest : List Char) (escaped : Bool) :
    List Char → List Char × List Char
  | [] => (latest.reverse, [])
  | c :: cs =>
      if c = '|' then
        if escaped then cellText ('|' :: latest.tail) false cs else (latest.reverse, '|' :: cs)
      else cellText (c :: latest) (c = '\\' && !escaped) cs

private def dropPipe : List Char → List Char
  | '|' :: cs => cs
  | cs => cs

private def cellsFrom : Nat → List Char → List (List Char)
  | 0, _ => []
  | fuel + 1, cs =>
      match skipGaps (dropPipe cs) with
      | [] => []
      | cs =>
          let (text, after) := cellText [] false cs
          trimEnd text :: cellsFrom fuel after

/-- The cells of a row, each without the gaps around it. -/
def rowCells (cs : List Char) : List (List Char) := cellsFrom (cs.length + 1) cs

end KeyedMarkup.Markdown
