import KeyedMarkup.Json.Value
import KeyedMarkup.Number.Text

/-!
# JSON texts

A value is written compactly, without any space, or laid out over lines with two spaces of indent
for each level. In a text only quotation marks, backslashes and control characters are escaped.
Numbers that are not finite are written as `null`, for which there is no number in JSON.
-/

namespace KeyedMarkup.Json

private def lowHex (n : Nat) : List Char :=
  let digit (d : Nat) : Char := if d < 10 then Char.ofNat (48 + d) else Char.ofNat (87 + d)
  ['\\', 'u', '0', '0', digit (n / 16), digit (n % 16)]

def escapeChar : Char → List Char
  | '"' => ['\\', '"']
  | '\\' => ['\\', '\\']
  | '\x08' => ['\\', 'b']
  | '\x0c' => ['\\', 'f']
  | '\n' => ['\\', 'n']
  | '\r' => ['\\', 'r']
  | '\t' => ['\\', 't']
  | c => if c.toNat < 0x20 then lowHex c.toNat else [c]

/-- A text in quotation marks. -/
def quoted (s : String) : String := "\"" ++ String.ofList (s.toList.flatMap escapeChar) ++ "\""

def numberText (x : Binary64) : String :=
  if x.isFinite then NumberFormat.json.finiteText x else "null"

namespace Value

mutual

/-- The compact text of a value. -/
def compact : Value → String
  | .null | .unusable => "null"
  | .flag b => if b then "true" else "false"
  | .number x => numberText x
  | .text s => quoted s
  | .array items => "[" ++ compactItems items ++ "]"
  | .object fields => "\x7b" ++ compactFields fields ++ "\x7d"

def compactItems : List Value → String
  | [] => ""
  | [v] => v.compact
  | v :: rest => v.compact ++ "," ++ compactItems rest

def compactFields : List (String × Value) → String
  | [] => ""
  | [(name, v)] => quoted name ++ ":" ++ v.compact
  | (name, v) :: rest => quoted name ++ ":" ++ v.compact ++ "," ++ compactFields rest

end

/-- A line break and the indent of a level. -/
def newLine (level : Nat) : String := "\n" ++ String.ofList (List.replicate (2 * level) ' ')

mutual

/-- The text of a value over lines, whose first line stands at a given level. -/
def laidOut (level : Nat) : Value → String
  | .array (v :: rest) => "[" ++ layItems (level + 1) (v :: rest) ++ newLine level ++ "]"
  | .object (f :: rest) => "\x7b" ++ layFields (level + 1) (f :: rest) ++ newLine level ++ "\x7d"
  | v => v.compact

def layItems (level : Nat) : List Value → String
  | [] => ""
  | [v] => newLine level ++ v.laidOut level
  | v :: rest => newLine level ++ v.laidOut level ++ "," ++ layItems level rest

def layFields (level : Nat) : List (String × Value) → String
  | [] => ""
  | [(name, v)] => newLine level ++ quoted name ++ ": " ++ v.laidOut level
  | (name, v) :: rest =>
      newLine level ++ quoted name ++ ": " ++ v.laidOut level ++ "," ++ layFields level rest

end

/-- The text of a value over lines. -/
def pretty (v : Value) : String := v.laidOut 0

end Value

end KeyedMarkup.Json
