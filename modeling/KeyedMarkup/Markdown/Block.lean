import KeyedMarkup.Markdown.Inline

/-!
# Block structure

The blocks of a document with their inline content still as text, and the events that they stand
for. The paragraphs of a tight list are not set apart from their items.
-/

namespace KeyedMarkup.Markdown

/-- A block. Items stand only in lists. A task marker belongs to the first paragraph or heading of
its item or, if the rest of its line is blank, stands on its own. -/
inductive Block where
  | paragraph (task : Option Bool) (text : List Char)
  | heading (level : Nat) (task : Option Bool) (text : List Char)
  | code (info : Option String) (text : List Char)
  | html (parts : List Doc.Event)
  | rule
  | table (columns : List (Option Doc.Align)) (header : List (List Char))
      (rows : List (List (List Char)))
  | task (checked : Bool)
  | quote (content : List Block)
  | list (start : Option Nat) (tight : Bool) (items : List Block)
  | item (content : List Block)
deriving Inhabited

namespace Block

variable (gfm : Bool) (targets : Targets)

private def taskEvents (task : Option Bool) : List Doc.Event := (task.map Doc.Event.task).toList

/-- A cell with the rest of the events after it. -/
private def cellEvents (text : List Char) (rest : List Doc.Event) : List Doc.Event :=
  .start .tableCell :: (Inline.events gfm targets text ++ .stop :: rest)

/-- Exactly `n` cells: missing ones are empty, and those beyond are left out. -/
def fillRow (n : Nat) (cells : List (List Char)) : List (List Char) :=
  (cells ++ List.replicate (n - cells.length) []).take n

private def rowEvents (tag : Doc.Tag) (n : Nat) (cells : List (List Char))
    (rest : List Doc.Event) : List Doc.Event :=
  .start tag :: (fillRow n cells).foldr (cellEvents gfm targets) (.stop :: rest)

mutual

/-- The events of a block, before the rest; `tight` if it stands in an item of a tight list. -/
def eventsBefore (tight : Bool) : Block → List Doc.Event → List Doc.Event
  | .paragraph mark text, rest =>
      let content := taskEvents mark ++ Inline.events gfm targets text
      if tight then content ++ rest else .start .paragraph :: (content ++ .stop :: rest)
  | .heading level mark text, rest =>
      .start (.heading level) ::
        (taskEvents mark ++ Inline.events gfm targets text ++ .stop :: rest)
  | .code info text, rest =>
      .start (.code info) :: .text (String.ofList text) :: .stop :: rest
  | .html parts, rest => .start .html :: (parts ++ .stop :: rest)
  | .rule, rest => .rule :: rest
  | .table columns header rows, rest =>
      .start (.table columns) :: rowEvents gfm targets .tableHead columns.length header
        (rows.foldr (rowEvents gfm targets .tableRow columns.length) (.stop :: rest))
  | .task checked, rest => .task checked :: rest
  | .quote content, rest => .start .blockquote :: allBefore false content (.stop :: rest)
  | .list start tight items, rest => .start (.list start) :: allBefore tight items (.stop :: rest)
  | .item content, rest => .start .item :: allBefore tight content (.stop :: rest)

def allBefore (tight : Bool) : List Block → List Doc.Event → List Doc.Event
  | [], rest => rest
  | b :: bs, rest => eventsBefore tight b (allBefore tight bs rest)

end

/-- The events of a document's blocks. -/
def events (blocks : List Block) : List Doc.Event := allBefore gfm targets false blocks []

end Block

end KeyedMarkup.Markdown
