import KeyedMarkup.Toml.Token
import KeyedMarkup.Toml.Value

/-!
# Reading TOML

A document is read token by token. What is open around the value that is due is kept as a stack
of frames: the line's key, and lists and tables in braces, which nest to a limit.
-/

namespace KeyedMarkup.Toml

/-- What a value that is due belongs to. Items are latest first. -/
inductive Frame where
  | line (key : List String)
  | list (items : List Value)
  | table (fields : Fields) (key : List String)

/-- Where a key stands: in a line, in the header of a table or of one more table of a list, or in
a table in braces. -/
inductive Place where
  | line
  | header
  | rowHeader
  | braces
deriving DecidableEq

/-- What has been read last, and so what may follow. A `part` of a key is due, or the next token
follows one; a list may go on with an `item` or end, and a table in braces with a `field`. A word
may have more parts, and after a date and a `gap` the time may follow. -/
inductive Mode where
  | line
  | bracket
  | part (place : Place) (before : List String)
  | key (place : Place) (parts : List String)
  | closing (parts : List String)
  | value
  | item
  | field
  | word (text : String)
  | gap (text : String)
  | after

/-- A document so far, the path of the last header, what is open, and what has been read last. -/
structure Reader where
  root : Fields
  header : List String
  frames : List Frame
  mode : Mode

namespace Reader

def start : Reader := ⟨[], [], [], .line⟩

/-- How many lists and tables in braces may stand inside each other. -/
def nestingLimit : Nat := 80

/-- A value is given to what it is due to. -/
def accept (r : Reader) (v : Value) : Option Reader :=
  match r.frames with
  | [] => none
  | .line key :: outer =>
      (Fields.inside (Fields.assign v key) r.header r.root).map fun root =>
        { r with root := root, frames := outer, mode := .after }
  | .list items :: outer => some { r with frames := .list (v :: items) :: outer, mode := .after }
  | .table fields key :: outer =>
      (fields.assign v key).map fun fields =>
        { r with frames := .table fields [] :: outer, mode := .after }

def acceptWord (r : Reader) (text : String) : Option Reader :=
  (Value.ofWord? text).bind r.accept

/-- The innermost list or table in braces ends. -/
def close (r : Reader) : Option Reader :=
  match r.frames with
  | .list items :: outer => { r with frames := outer }.accept (.list false items.reverse)
  | .table fields _ :: outer => { r with frames := outer }.accept (.table .braces fields)
  | _ => none

/-- A list or a table in braces begins. -/
def descend (r : Reader) (frame : Frame) (mode : Mode) : Option Reader :=
  if r.frames.length ≤ nestingLimit then
    some { r with frames := frame :: r.frames, mode := mode }
  else none

/-- The token where a value is due. -/
def readValue (r : Reader) : Token → Option Reader
  | .word s => some { r with mode := .word s }
  | .text s _ => r.accept (.text s)
  | .openBracket => r.descend (.list []) .item
  | .openBrace => r.descend (.table [] []) .field
  | _ => none

def isKeyChar (c : Char) : Bool := c.isAlphanum || c == '_' || c == '-'

/-- The token where a part of a key is due. -/
def readPart (r : Reader) (place : Place) (before : List String) : Token → Option Reader
  | .blank _ => some { r with mode := .part place before }
  | .word s =>
      if s.toList.all isKeyChar then some { r with mode := .key place (before ++ [s]) } else none
  | .text s false => some { r with mode := .key place (before ++ [s]) }
  | _ => none

def enterTable (r : Reader) (path : List String) : Option Reader :=
  (r.root.openTable path).map fun root => { r with root := root, header := path, mode := .after }

def enterRow (r : Reader) (path : List String) : Option Reader :=
  (r.root.openRow path).map fun root => { r with root := root, header := path, mode := .after }

/-- The token after a part of a key. -/
def readAfterPart (r : Reader) (place : Place) (parts : List String) (t : Token) :
    Option Reader :=
  match t, place, r.frames with
  | .blank _, _, _ => some r
  | .dot, _, _ => some { r with mode := .part place parts }
  | .equals, .line, frames => some { r with frames := .line parts :: frames, mode := .value }
  | .equals, .braces, .table fields _ :: outer =>
      some { r with frames := .table fields parts :: outer, mode := .value }
  | .closeBracket, .header, _ => r.enterTable parts
  | .closeBracket, .rowHeader, _ => some { r with mode := .closing parts }
  | _, _, _ => none

/-- The token after a value or a header. -/
def readAfter (r : Reader) (t : Token) : Option Reader :=
  match t, r.frames with
  | .blank _, _ => some r
  | .newline, [] => some { r with mode := .line }
  | .newline, _ => some r
  | .comma, .list _ :: _ => some { r with mode := .item }
  | .comma, .table _ _ :: _ => some { r with mode := .field }
  | .closeBracket, .list _ :: _ => r.close
  | .closeBrace, .table _ _ :: _ => r.close
  | _, _ => none

/-- Whether a word can be a time. -/
def startsWithDigit (s : String) : Bool := (s.toList.head?.map Char.isDigit).getD false

/-- Takes one more token; `none` if it cannot stand there. -/
def step (r : Reader) (t : Token) : Option Reader :=
  match r.mode, t with
  | .line, .blank _ | .line, .newline => some r
  | .line, .openBracket => some { r with mode := .bracket }
  | .line, t => r.readPart .line [] t
  | .bracket, .openBracket => some { r with mode := .part .rowHeader [] }
  | .bracket, t => r.readPart .header [] t
  | .part place before, t => r.readPart place before t
  | .key place parts, t => r.readAfterPart place parts t
  | .closing parts, .closeBracket => r.enterRow parts
  | .closing _, _ => none
  | .value, .blank _ => some r
  | .value, t => r.readValue t
  | .item, .blank _ | .item, .newline => some r
  | .item, .closeBracket => r.close
  | .item, t => r.readValue t
  | .field, .blank _ | .field, .newline => some r
  | .field, .closeBrace => r.close
  | .field, t => r.readPart .braces [] t
  | .word text, .word more => some { r with mode := .word (text ++ more) }
  | .word text, .dot => some { r with mode := .word (text ++ ".") }
  | .word text, .blank ' ' =>
      if Scalar.isDate text.toList then some { r with mode := .gap text } else r.acceptWord text
  | .word text, t => (r.acceptWord text).bind fun r => r.readAfter t
  | .gap text, .word more =>
      if startsWithDigit more then some { r with mode := .word (text ++ " " ++ more) } else none
  | .gap text, t => (r.acceptWord text).bind fun r => r.readAfter t
  | .after, t => r.readAfter t

def run (r : Reader) : List Token → Option Reader
  | [] => some r
  | t :: ts =>
      match r.step t with
      | some r => r.run ts
      | none => none

/-- The document, unless something is left open. -/
def finish (r : Reader) : Option Fields :=
  (match r.mode with
    | .line | .after => some r
    | .word text | .gap text => r.acceptWord text
    | _ => none).bind fun r => if r.frames.isEmpty then some r.root else none

end Reader

/-- The entries of a document, if the text is one. -/
def fieldsOfText? (text : String) : Option Fields :=
  (tokens? text).bind fun ts => (Reader.start.run ts).bind Reader.finish

end KeyedMarkup.Toml
