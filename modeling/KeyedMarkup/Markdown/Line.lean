/-!
# Lines and columns

A text is read line by line. Within a line a cursor counts columns, because a tab reaches to the
next multiple of four and may be taken in part: what is left of it counts as spaces.
-/

namespace KeyedMarkup.Markdown

/-- A line and the character that ends it, if it is ended. -/
structure Line where
  text : List Char
  ending : List Char
deriving Inhabited

private def splitLines (latest : List Char) : List Char → List Line
  | [] => if latest.isEmpty then [] else [⟨latest.reverse, []⟩]
  | '\r' :: '\n' :: cs => ⟨latest.reverse, ['\n']⟩ :: splitLines [] cs
  | '\n' :: cs => ⟨latest.reverse, ['\n']⟩ :: splitLines [] cs
  | '\r' :: cs => ⟨latest.reverse, ['\r']⟩ :: splitLines [] cs
  | c :: cs => splitLines (c :: latest) cs

/-- The lines of a text. A carriage return before a line feed belongs to the line end. -/
def linesOf (cs : List Char) : List Line := splitLines [] cs

/-- The characters that part words within a line. -/
def isGap (c : Char) : Bool := c == ' ' || c == '\t' || c == '\x0b' || c == '\x0c'

def isBreak (c : Char) : Bool := c == '\n' || c == '\r'

def skipGaps (cs : List Char) : List Char := cs.dropWhile isGap

/-- Whether nothing but gaps is left. -/
def isBlankRest (cs : List Char) : Bool := cs.all isGap

/-- The characters without the gaps at their end. -/
def trimEnd (cs : List Char) : List Char := (cs.reverse.dropWhile isGap).reverse

/-- A place in a line: the characters after it, its column, and how many columns of a tab before
it are not yet taken. -/
structure Cursor where
  rest : List Char
  column : Nat
  spare : Nat
deriving Inhabited

namespace Cursor

def start (cs : List Char) : Cursor := ⟨cs, 0, 0⟩

private def takeFrom (want taken column : Nat) : List Char → Nat × Cursor
  | [] => (taken, ⟨[], column, 0⟩)
  | c :: cs =>
      if want = 0 then (taken, ⟨c :: cs, column, 0⟩)
      else if c = ' ' then takeFrom (want - 1) (taken + 1) (column + 1) cs
      else if c = '\t' then
        let width := 4 - column % 4
        if want < width then (taken + want, ⟨cs, column + width, width - want⟩)
        else takeFrom (want - width) (taken + width) (column + width) cs
      else (taken, ⟨c :: cs, column, 0⟩)

/-- Takes up to `want` columns of spaces, and says how many. -/
def takeColumns (c : Cursor) (want : Nat) : Nat × Cursor :=
  if want < c.spare then (want, { c with spare := c.spare - want })
  else takeFrom (want - c.spare) c.spare c.column c.rest

/-- Takes exactly `want` columns of spaces, if there are so many. -/
def takeExactly? (c : Cursor) (want : Nat) : Option Cursor :=
  let (taken, after) := c.takeColumns want
  if taken = want then some after else none

private def skipFrom (column : Nat) : List Char → Cursor
  | ' ' :: cs => skipFrom (column + 1) cs
  | '\t' :: cs => skipFrom (column + (4 - column % 4)) cs
  | cs => ⟨cs, column, 0⟩

/-- Takes all spaces. -/
def skipSpaces (c : Cursor) : Cursor := skipFrom c.column c.rest

/-- Takes a given character. -/
def take? (c : Cursor) (x : Char) : Option Cursor :=
  match c.rest with
  | y :: cs => if x = y then some ⟨cs, c.column + 1, c.spare⟩ else none
  | [] => none

def atEnd (c : Cursor) : Bool := c.rest.isEmpty

end Cursor

end KeyedMarkup.Markdown
