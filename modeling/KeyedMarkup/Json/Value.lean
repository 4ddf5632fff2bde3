import KeyedMarkup.Json.Token

/-!
# JSON values

A value is read from tokens with a list of the arrays and objects that are still open, so nesting
is not limited here. Fields keep their order, and repeated names stay. What holds an unusable text
or number directly is itself unusable.
-/

namespace KeyedMarkup.Json

inductive Value where
  | null
  | flag (b : Bool)
  | number (x : Binary64)
  | text (s : String)
  | array (items : List Value)
  | object (fields : List (String × Value))
  | unusable
deriving Inhabited

/-- An open array or object with what it holds so far, latest first. `entry` is an object whose
next field has a name and awaits its value; a name is missing if it is unusable. -/
inductive Frame where
  | items (latest : List Value)
  | fields (latest : List (Option String × Value))
  | entry (latest : List (Option String × Value)) (name : Option String)

/-- What may come next: the first item or field of what was just opened or its end, a value, the
name of a field, a colon, or what follows a value. -/
inductive Phase where
  | first
  | value
  | name
  | colon
  | next
  | done (v : Value)

structure Reading where
  frames : List Frame
  phase : Phase

namespace Reading

def start : Reading := ⟨[], .value⟩

/-- Puts a finished value into the innermost open array or object. -/
def accept (frames : List Frame) (v : Value) : Reading :=
  match frames with
  | [] => ⟨[], .done v⟩
  | .items latest :: outer => ⟨.items (v :: latest) :: outer, .next⟩
  | .fields latest :: outer => ⟨.fields latest :: outer, .next⟩
  | .entry latest name :: outer => ⟨.fields ((name, v) :: latest) :: outer, .next⟩

/-- The object of a list of fields, if all names are usable. -/
def objectOf (fields : List (Option String × Value)) : Value :=
  if fields.all (·.1.isSome) then .object (fields.map fun f => (f.1.getD "", f.2)) else .unusable

private def leaf? : Token → Option Value
  | .null => some .null
  | .flag b => some (.flag b)
  | .number (some x) => some (.number x)
  | .text (some s) => some (.text s)
  | .number none | .text none => some .unusable
  | _ => none

/-- Takes a token that starts a value. -/
def startValue (frames : List Frame) (t : Token) : Option Reading :=
  match t with
  | .openBracket => some ⟨.items [] :: frames, .first⟩
  | .openBrace => some ⟨.fields [] :: frames, .first⟩
  | _ => (leaf? t).map (accept frames)

private def startField (latest : List (Option String × Value)) (outer : List Frame) :
    Token → Option Reading
  | .text name => some ⟨.entry latest name :: outer, .colon⟩
  | _ => none

/-- Takes one more token; `none` if it cannot stand there. -/
def step (r : Reading) (t : Token) : Option Reading :=
  match r.phase, r.frames with
  | .value, frames => startValue frames t
  | .colon, frames => if t = .colon then some ⟨frames, .value⟩ else none
  | .first, .items latest :: outer =>
      if t = .closeBracket then some (accept outer (.array []))
      else startValue (.items latest :: outer) t
  | .first, .fields latest :: outer =>
      if t = .closeBrace then some (accept outer (.object [])) else startField latest outer t
  | .name, .fields latest :: outer => startField latest outer t
  | .next, .items latest :: outer =>
      if t = .comma then some ⟨.items latest :: outer, .value⟩
      else if t = .closeBracket then some (accept outer (.array latest.reverse))
      else none
  | .next, .fields latest :: outer =>
      if t = .comma then some ⟨.fields latest :: outer, .name⟩
      else if t = .closeBrace then some (accept outer (objectOf latest.reverse))
      else none
  | _, _ => none

def run (r : Reading) : List Token → Option Reading
  | [] => some r
  | t :: ts =>
      match r.step t with
      | some r => r.run ts
      | none => none

def finish (r : Reading) : Option Value :=
  match r.phase with
  | .done v => some v
  | _ => none

end Reading

namespace Value

def ofTokens? (ts : List Token) : Option Value := (Reading.start.run ts).bind Reading.finish

/-- The value of a JSON text, if it is one. -/
def ofText? (text : String) : Option Value := (tokens? text).bind ofTokens?

end Value

end KeyedMarkup.Json
