import KeyedMarkup.Markdown.Block
import KeyedMarkup.Markdown.Mark

/-!
# Reading blocks

A document is read line by line. Each line first goes on with the quotes and list items that are
open, as far as it can; then either it belongs to the leaf that is open, such as a paragraph or a
code block, or it ends that leaf and what it did not go on with, may open quotes and items, and
starts a leaf of its own. Only paragraphs go on where quotes or items do not.
-/

namespace KeyedMarkup.Markdown

/-- What other blocks stand in. A list is known by the character of its marks; the content of an
item is indented by some columns. -/
inductive Container where
  | quote
  | list (kind : Char) (number : Nat) (tight : Bool)
  | item (indent : Nat)

namespace Container

/-- The place in a line after what a container needs to go on. -/
def follow? (c : Container) (at_ : Cursor) : Option Cursor :=
  match c with
  | .quote => quoteMark? (at_.takeColumns 3).2
  | .list _ _ _ => some at_
  | .item indent =>
      let (taken, after) := at_.takeColumns indent
      if taken = indent || after.atEnd then some after else none

/-- How many containers, outermost first, go on with a line, and the place after their marks. -/
def followAll (matched : Nat) (at_ : Cursor) : List Container → Nat × Cursor
  | [] => (matched, at_)
  | c :: inner =>
      match c.follow? at_ with
      | some after => followAll (matched + 1) after inner
      | none => (matched, at_)

end Container

/-- An open container with its blocks, latest first. -/
structure OpenContainer where
  container : Container
  latest : List Block

def OpenContainer.block (o : OpenContainer) : Block :=
  match o.container with
  | .quote => .quote o.latest.reverse
  | .list kind number tight =>
      .list (if isBullet kind then none else some number) tight o.latest.reverse
  | .item _ => .item o.latest.reverse

/-- A list becomes loose. -/
def OpenContainer.loosened (o : OpenContainer) : OpenContainer :=
  match o.container with
  | .list kind number _ => { o with container := .list kind number false }
  | _ => o

/-- The leaf that is open; its lines come latest first. An indented code block marks its blank
lines. `alert` has read the first line of an alert, which a paragraph may follow like a line of
its own. -/
inductive Leaf where
  | none
  | paragraph (task : Option Bool) (lines : List (List Char))
  | fenced (fence : Fence) (indent : Nat) (lines : List (List Char))
  | indented (lines : List (Bool × List Char))
  | html (ending : Option String) (parts : List Doc.Event)
  | table (columns : List (Option Doc.Align)) (header : List Char) (rows : List (List (List Char)))
  | alert

/-- Lines, latest first, as one text. -/
private def joinLines (lines : List (List Char)) : List Char := ['\n'].intercalate lines.reverse

def Leaf.block? : Leaf → Option Block
  | .none | .alert => Option.none
  | .paragraph task lines => some (.paragraph task (trimEnd (joinLines lines)))
  | .fenced fence _ lines =>
      let info := trimEnd (skipGaps fence.info)
      some (.code (some (unescape info)) lines.reverse.flatten)
  | .indented lines =>
      some (.code Option.none ((lines.dropWhile (·.1)).reverse.flatMap (·.2)))
  | .html _ parts => some (.html parts.reverse)
  | .table columns header rows => some (.table columns (rowCells header) rows.reverse)

/-- A document so far. `containers` are open, innermost first, and `blocks` are those outside of
them, latest first. `lastBlank` and `begunBlank` tell whether the last line was blank and whether
the innermost item has nothing yet; `task` is a task marker whose paragraph is awaited; `skip`
lines are taken already. -/
structure Parser where
  gfm : Bool
  containers : List OpenContainer
  blocks : List Block
  leaf : Leaf
  lastBlank : Bool
  begunBlank : Bool
  task : Option Bool
  skip : Nat
  targets : Targets

namespace Parser

def start (gfm : Bool) : Parser := ⟨gfm, [], [], .none, false, false, none, 0, .empty⟩

def addBlock (p : Parser) (b : Block) : Parser :=
  match p.containers with
  | [] => { p with blocks := b :: p.blocks }
  | o :: outer => { p with containers := { o with latest := b :: o.latest } :: outer }

def openContainer (p : Parser) (c : Container) : Parser :=
  { p with containers := ⟨c, []⟩ :: p.containers }

/-- Closes the innermost container. -/
def close (p : Parser) : Parser :=
  match p.containers with
  | [] => p
  | o :: outer => { p with containers := outer }.addBlock o.block

private def closeTimes : Nat → Parser → Parser
  | 0, p => p
  | n + 1, p => closeTimes n p.close

/-- Closes all containers but the outermost `n`. -/
def closeTo (p : Parser) (n : Nat) : Parser := closeTimes (p.containers.length - n) p

def closeLeaf (p : Parser) : Parser :=
  let closed := { p with leaf := .none }
  match p.leaf.block? with
  | some b => closed.addBlock b
  | none => closed

/-! ## Lists -/

/-- Closes an item that began with two blank lines. -/
private def closeEmptyItem (p : Parser) : Parser :=
  let q := { p with begunBlank := false }
  match p.containers with
  | ⟨.item _, _⟩ :: _ => if p.begunBlank && p.lastBlank then q.close else q
  | _ => q

/-- A block that is not an item ends the list at whose level it stands. After a blank line it
makes the list loose in whose item it stands. -/
def endList (p : Parser) : Parser :=
  let p := p.closeEmptyItem
  let p := match p.containers with
    | ⟨.list _ _ _, _⟩ :: _ => p.close
    | _ => p
  if p.lastBlank then
    let containers := match p.containers with
      | inner :: outer :: rest => inner :: outer.loosened :: rest
      | other => other
    { p with containers, lastBlank := false }
  else p

/-- An item goes on with the list at whose level it stands, if that has the same marks, or starts
a list. -/
def goOnWithList (p : Parser) (m : ItemMark) : Parser :=
  let p := p.closeEmptyItem
  let fresh (p : Parser) : Parser :=
    { p.openContainer (.list m.kind m.number true) with lastBlank := false }
  match p.containers with
  | [] => fresh p
  | o :: outer =>
      match o.container with
      | .list kind _ _ =>
          if kind = m.kind then
            if p.lastBlank then { p with containers := o.loosened :: outer, lastBlank := false }
            else p
          else fresh p.endList
      | _ => fresh p.endList

/-! ## Where a paragraph ends -/

/-- The containers that go on with a line, by number, and the place after their marks. -/
def follow (p : Parser) (text : List Char) : Nat × Cursor :=
  Container.followAll 0 (.start text) (p.containers.reverse.map (·.container))

private def isBlankNext : List Line → Bool
  | [] => true
  | l :: _ => isBlankRest l.text

/-- Whether a block starts that ends a paragraph. Where all containers go on and there is no
table, an item does so only with a bullet or the number one, and not if this line and the next
are blank after it. -/
def interrupts (current inTable : Bool) (cs : List Char) (next : List Line) : Bool :=
  cs.isEmpty || isThematicBreak cs || (headingLevel? cs).isSome || (fence? cs).isSome ||
    cs.head? == some '>' ||
    (match interruptingItem? cs with
      | some (first, after) =>
          !current || inTable || (first && !(isBlankRest after && isBlankNext next))
      | none => false) ||
    match cs with
    | '<' :: after => (Html.blockEnd? after).isSome || Html.startsBlock after
    | _ => false

/-- The columns of the table whose header row is given, if the next line has a delimiter for each
of its cells. -/
def columnsUnder? (p : Parser) (header : List Char) (next : Line) :
    Option (List (Option Doc.Align)) :=
  let (matched, at_) := p.follow next.text
  if p.gfm && matched == p.containers.length then
    match delimiterRow? at_ with
    | some columns => if columns.length = headerCells header then some columns else none
    | none => none
  else none

/-- Whether a line ends a paragraph, also by starting a table. -/
private def endsParagraph (p : Parser) (current : Bool) (cs : List Char) (next : List Line) :
    Bool :=
  interrupts current false cs next ||
    match next with
    | l :: _ => current && (p.columnsUnder? cs l).isSome
    | [] => false

/-- The lines that would go on with a paragraph, without their indents. -/
private def paragraphLines (p : Parser) : List Line → List (List Char)
  | [] => []
  | l :: next =>
      let (matched, at_) := p.follow l.text
      let (indent, inner) := at_.takeColumns 4
      if indent < 4 && (p.endsParagraph (matched == p.containers.length) inner.rest next ||
          (underlineLevel? inner.rest).isSome) then []
      else
        match inner.skipSpaces.rest with
        | [] => []
        | cs => cs :: paragraphLines p next

/-! ## New blocks -/

private def spaces (n : Nat) : List Char := List.replicate n ' '

/-- What is left of a line of code, with its end. -/
private def codeLine (at_ : Cursor) (l : Line) : List Char :=
  spaces at_.spare ++ at_.rest ++ l.ending

/-- A line of an HTML block. Its indent is a text of its own. -/
private def htmlLine (indent : Nat) (cs : List Char) (l : Line) : List Doc.Event :=
  [.html (String.ofList (cs ++ l.ending))] ++
    if indent = 0 then [] else [.text (String.ofList (spaces indent))]

/-- The text of a heading, without number signs at its end that a space parts from it. -/
private def headingText (cs : List Char) : List Char :=
  let dropEnd (x : Char) (cs : List Char) : List Char := (cs.reverse.dropWhile (· == x)).reverse
  let body := dropEnd ' ' cs
  let bare := dropEnd '#' body
  let text := dropEnd ' ' bare
  if bare.isEmpty then [] else if text.length < bare.length then text else body

private def blankLine (p : Parser) : Parser :=
  match p.containers with
  | ⟨.quote, _⟩ :: _ => p
  | _ => { p with lastBlank := true }

private def htmlBlock (p : Parser) (ending : Option String) (indent : Nat) (cs : List Char)
    (l : Line) : Parser :=
  let p := { p.endList with leaf := .html ending (htmlLine indent cs l) }
  if ending.any (Html.occurs · cs) then p.closeLeaf else p

/-- Starts an HTML block, if the line does. -/
private def htmlBlock? (p : Parser) (indent : Nat) (cs : List Char) (l : Line) : Option Parser :=
  match cs with
  | '<' :: after =>
      match Html.blockEnd? after with
      | some ending => some (p.htmlBlock (some ending) indent cs l)
      | none =>
          if Html.startsBlock after || Html.isLoneTag after then
            some (p.htmlBlock none indent cs l)
          else none
  | _ => none

/-- Starts a leaf, other than indented code, with what is left of a line. -/
private def leafAt (p : Parser) (indent : Nat) (cs : List Char) (l : Line) (next : List Line) :
    Parser :=
  match p.htmlBlock? indent cs l with
  | some p => p
  | none =>
      let p := p.endList
      if isThematicBreak cs then p.addBlock .rule
      else
        match headingLevel? cs, fence? cs with
        | some level, _ =>
            p.addBlock (.heading level none (headingText (skipGaps (cs.drop level))))
        | none, some fence => { p with leaf := .fenced fence indent [] }
        | none, none =>
            let definition := if cs.head? == some '[' then
                definition? (['\n'].intercalate (cs :: p.paragraphLines next))
              else none
            match definition with
            | some d => { p with targets := d.addTo p.targets, skip := d.lines - 1 }
            | none => { p with leaf := .paragraph p.task [cs], task := none }

/-- Starts a leaf within the open containers. -/
private def startLeaf (p : Parser) (at_ : Cursor) (l : Line) (next : List Line) : Parser :=
  if isBlankRest at_.rest then p.blankLine
  else
    let (indent, inner) := at_.takeColumns 4
    if indent = 4 then
      { p.endList with leaf := .indented [(false, codeLine inner l)], lastBlank := false }
    else p.leafAt indent inner.rest l next

/-- Opens the quotes and items that start at a place in a line; `none` instead of the place after
them if nothing is left of the line. -/
private def openContainers (l : Line) : Nat → Parser → Cursor → Parser × Option Cursor
  | 0, p, at_ => (p, some at_)
  | fuel + 1, p, at_ =>
      let (outer, inner) := at_.takeColumns 4
      if 4 ≤ outer then (p, some at_)
      else
        match itemMark? inner outer, quoteMark? inner with
        | some (mark, after), _ =>
            let p := (p.goOnWithList mark).openContainer (.item mark.indent)
            if isBlankRest after.rest then ({ p with begunBlank := true }, none)
            else
              match (if p.gfm then taskMark? after (!l.ending.isEmpty) else none) with
              | some (checked, after) =>
                  if isBlankRest after.rest then
                    ({ p.addBlock (.task checked) with begunBlank := true }, none)
                  else openContainers l fuel { p with task := some checked } after
              | none => openContainers l fuel p after
        | none, some after =>
            let p := p.endList.openContainer .quote
            if p.gfm && isAlert after.rest then ({ p with leaf := .alert }, none)
            else openContainers l fuel p after
        | none, none => (p, some at_)

/-- Takes a line that starts a block, after the marks of the containers that go on. -/
private def startBlock (p : Parser) (matched : Nat) (at_ : Cursor) (l : Line)
    (next : List Line) : Parser :=
  match openContainers l (l.text.length + 1) (p.closeLeaf.closeTo matched) at_ with
  | (p, some at_) => p.startLeaf at_ l next
  | (p, none) => p

/-! ## Lines -/

private def endsInBackslash (cs : List Char) : Bool :=
  (cs.reverse.takeWhile (· == '\\')).length % 2 == 1

/-- The columns of the table that a paragraph of one line turns out to be the header of. -/
private def tableUnder? (p : Parser) (lines : List (List Char)) (l : Line) :
    Option (List (Option Doc.Align) × List Char) :=
  match lines with
  | [header] =>
      if 0 < pipeCount header && !endsInBackslash header then
        (p.columnsUnder? header l).map fun columns => (columns, header)
      else none
  | _ => none

/-- Takes a line after some lines of a paragraph. -/
private def paragraphLine (p : Parser) (task : Option Bool) (lines : List (List Char))
    (matched : Nat) (at_ : Cursor) (l : Line) (next : List Line) : Parser :=
  let current := matched == p.containers.length
  let (indent, inner) := at_.takeColumns 4
  let level := if indent < 4 && current then underlineLevel? inner.rest else none
  match p.tableUnder? lines l, level with
  | some (columns, header), _ => { p with leaf := .table columns header [] }
  | none, some level =>
      { p with leaf := .none }.addBlock (.heading level task (trimEnd (joinLines lines)))
  | none, none =>
      if (indent < 4 && p.endsParagraph current inner.rest next) || inner.skipSpaces.atEnd then
        p.startBlock matched at_ l next
      else { p with leaf := .paragraph task (at_.rest :: lines) }

/-- Takes a line, which others follow. -/
def line (p : Parser) (l : Line) (next : List Line) : Parser :=
  let (matched, at_) := p.follow l.text
  let current := matched == p.containers.length
  match p.leaf with
  | .none => p.startBlock matched at_ l next
  | .paragraph task lines => p.paragraphLine task lines matched at_ l next
  | .fenced fence indent lines =>
      if !current then p.startBlock matched at_ l next
      else
        let inner := (at_.takeColumns indent).2
        let (more, mark) := inner.takeColumns (4 - indent)
        if more < 4 - indent && fence.closedBy mark.rest then p.closeLeaf
        else { p with leaf := .fenced fence indent (codeLine inner l :: lines) }
  | .indented lines =>
      let (indent, inner) := at_.takeColumns 4
      if current && (indent == 4 || inner.atEnd) then
        let blank := isBlankRest inner.rest
        { p with leaf := .indented ((blank, codeLine inner l) :: lines), lastBlank := blank }
      else p.startBlock matched at_ l next
  | .html ending parts =>
      if !current || (ending.isNone && isBlankRest at_.rest) then p.startBlock matched at_ l next
      else
        let p := { p with leaf := .html ending (htmlLine at_.spare at_.rest l ++ parts) }
        if ending.any (Html.occurs · at_.rest) then p.closeLeaf else p
  | .table columns header rows =>
      let inner := at_.skipSpaces
      let cells := rowCells inner.rest
      if !current || interrupts true true inner.rest next || cells.isEmpty then
        p.startBlock matched at_ l next
      else { p with leaf := .table columns header (cells :: rows) }
  | .alert =>
      let (indent, inner) := at_.takeColumns 4
      if indent < 4 && p.endsParagraph current inner.rest next then
        p.startBlock matched at_ l next
      else { p with leaf := .none }.startLeaf inner.skipSpaces l next

def run (p : Parser) : List Line → Parser
  | [] => p
  | l :: next =>
      if 0 < p.skip then run { p with skip := p.skip - 1 } next else run (p.line l next) next

/-- The blocks of the whole document and the targets that it defines. -/
def finish (p : Parser) : List Block × Targets :=
  let p := p.closeLeaf.closeTo 0
  (p.blocks.reverse, p.targets)

end Parser

/-- The events of a Markdown text; with `gfm`, tables, strikethrough, tasks and alerts too. -/
def events (gfm : Bool) (text : String) : List Doc.Event :=
  let (blocks, targets) := ((Parser.start gfm).run (linesOf text.toList)).finish
  Block.events gfm targets blocks

end KeyedMarkup.Markdown
