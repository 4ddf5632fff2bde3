import KeyedMarkup.Toml.Scalar

/-!
# TOML values and tables

A table may be named by its own header, by dotted keys, inside the header of another table, or be
written in braces. How it came about decides whether it may be named again: a header opens a table
once, dotted keys extend only what dotted keys began, and a table in braces is closed for good.
-/

namespace KeyedMarkup.Toml

/-- How a table came about. -/
inductive Origin where
  | implied
  | dotted
  | header
  | braces
deriving DecidableEq, Inhabited

/-- A list is `growing` if each of its tables has its own header. -/
inductive Value where
  | text (s : String)
  | integer (n : Int)
  | float
  | moment
  | flag (b : Bool)
  | list (growing : Bool) (items : List Value)
  | table (origin : Origin) (fields : List (String × Value))
deriving Inhabited

/-- The value of a word, if it has one. -/
def Value.ofWord? (word : String) : Option Value :=
  if word = "true" then some (.flag true)
  else if word = "false" then some (.flag false)
  else
    match Scalar.integer? word.toList with
    | some n => some (.integer n)
    | none =>
        if Scalar.isFloat word.toList then some .float
        else if Scalar.isMoment word.toList then some .moment
        else none

/-- The entries of a table in the order of their first mention. -/
abbrev Fields := List (String × Value)

namespace Fields

/-- Changes the value of a key, or gives it one. -/
def update (key : String) (change : Option Value → Option Value) : Fields → Option Fields
  | [] => (change none).map fun v => [(key, v)]
  | (k, v) :: rest =>
      if k = key then (change (some v)).map fun v => (k, v) :: rest
      else (update key change rest).map ((k, v) :: ·)

/-- Changes the table that a part of a header leads to: a table that is still open, the last one
of a growing list, or a new one. -/
def within (change : Fields → Option Fields) : Option Value → Option Value
  | none => (change []).map (.table .implied)
  | some (.table .braces _) => none
  | some (.table origin fields) => (change fields).map (.table origin)
  | some (.list true items) =>
      match items.getLast? with
      | some (.table origin fields) =>
          (change fields).map fun fields => .list true (items.dropLast ++ [.table origin fields])
      | _ => none
  | some _ => none

/-- Gives a dotted key a value. The last of the tables on the way must be one of dotted keys. -/
def assign (value : Value) : List String → Fields → Option Fields
  | [], _ => none
  | [key], fields => fields.update key fun old => if old.isNone then some value else none
  | key :: rest, fields =>
      fields.update key fun old =>
        match old with
        | none => (assign value rest []).map (.table .dotted)
        | some (.table .dotted inner) => (assign value rest inner).map (.table .dotted)
        | some (.table .header _) => none
        | some other => if rest.length < 2 then none else within (assign value rest) (some other)

/-- Opens the table of a header. -/
def openTable : List String → Fields → Option Fields
  | [], _ => none
  | [key], fields =>
      fields.update key fun old =>
        match old with
        | none => some (.table .header [])
        | some (.table .implied inner) => some (.table .header inner)
        | some _ => none
  | key :: rest, fields => fields.update key (within (openTable rest))

/-- Opens one more table of a growing list. -/
def openRow : List String → Fields → Option Fields
  | [], _ => none
  | [key], fields =>
      fields.update key fun old =>
        match old with
        | none => some (.list true [.table .header []])
        | some (.list true items) => some (.list true (items ++ [.table .header []]))
        | some _ => none
  | key :: rest, fields => fields.update key (within (openRow rest))

/-- Changes the table at a path of headers. -/
def inside (change : Fields → Option Fields) : List String → Fields → Option Fields
  | [], fields => change fields
  | key :: rest, fields => fields.update key (within (inside change rest))

end Fields

end KeyedMarkup.Toml
