/-!
# TOML tokens

A TOML text is scanned character by character into tokens. Quoted texts are decoded on the way and
comments leave no token; a run of other characters is a word, which is a key or a value by the
place where it stands. Line ends are kept, since they end a line's setting.
-/

namespace KeyedMarkup.Toml

inductive Token where
  | blank (c : Char)
  | newline
  | dot
  | equals
  | comma
  | openBracket
  | closeBracket
  | openBrace
  | closeBrace
  | word (s : String)
  | text (s : String) (lines : Bool)
deriving DecidableEq, Inhabited

namespace Scan

def singleQuote : Char := '\x27'

/-- A quoted text so far, its characters latest first. With `lines` it stands between three quotes
on each side; `fresh` holds until its first character, and a line end there is no part of it. -/
structure Quoted where
  quote : Char
  lines : Bool
  latest : List Char
  fresh : Bool
deriving Inhabited

namespace Quoted

def start (quote : Char) (lines : Bool) : Quoted := ⟨quote, lines, [], true⟩

def add (q : Quoted) (c : Char) : Quoted := { q with latest := c :: q.latest, fresh := false }

def addLineEnd (q : Quoted) : Quoted := if q.fresh then { q with fresh := false } else q.add '\n'

def addQuotes (q : Quoted) (n : Nat) : Quoted := (List.replicate n q.quote).foldl add q

def token (q : Quoted) : Token := .text (String.ofList q.latest.reverse) q.lines

end Quoted

/-- The token that has begun, if any. An `opening` quote may be the first of three, and two are an
empty text unless a third follows; up to five quotes are `closing` a text of several lines, since
its last two characters may be quotes. After a backslash at the end of a line blanks are skipped,
and `ended` tells whether the line end has been seen. -/
inductive Pending where
  | nothing
  | word (latest : List Char)
  | comment
  | carriageReturn
  | opening (quote : Char)
  | twoQuotes (quote : Char)
  | text (q : Quoted)
  | textReturn (q : Quoted)
  | closing (q : Quoted) (quotes : Nat)
  | escape (q : Quoted)
  | hex (q : Quoted) (left : Nat) (value : Nat)
  | skipping (q : Quoted) (ended : Bool)
  | skippingReturn (q : Quoted)

end Scan

/-- A scan so far: the tokens, latest first, and the one that has begun. -/
structure Scan where
  tokens : List Token
  pending : Scan.Pending

namespace Scan

def start : Scan := ⟨[], .nothing⟩

def isBlankChar (c : Char) : Bool := c == ' ' || c == '\t'

/-- Controls other than the tab stand in no text and no comment. -/
def isControl (c : Char) : Bool := (c.toNat < 0x20 && c != '\t') || c.toNat == 0x7F

/-- The tokens of a single character. -/
def punctuation? : Char → Option Token
  | '.' => some .dot
  | '=' => some .equals
  | ',' => some .comma
  | '[' => some .openBracket
  | ']' => some .closeBracket
  | '\x7b' => some .openBrace
  | '\x7d' => some .closeBrace
  | '\n' => some .newline
  | c => if isBlankChar c then some (.blank c) else none

def isWordChar (c : Char) : Bool :=
  (punctuation? c).isNone && c != '#' && c != '\r' && c != '"' && c != singleQuote

/-- Starts a token. -/
def begin (tokens : List Token) (c : Char) : Scan :=
  match punctuation? c with
  | some t => ⟨t :: tokens, .nothing⟩
  | none =>
      if c = '#' then ⟨tokens, .comment⟩
      else if c = '\r' then ⟨tokens, .carriageReturn⟩
      else if isWordChar c then ⟨tokens, .word [c]⟩
      else ⟨tokens, .opening c⟩

/-- Takes a character of a quoted text. -/
def inText (tokens : List Token) (q : Quoted) (c : Char) : Option Scan :=
  if c = q.quote then
    if q.lines then some ⟨tokens, .closing q 1⟩ else some ⟨q.token :: tokens, .nothing⟩
  else if c = '\\' && q.quote = '"' then some ⟨tokens, .escape { q with fresh := false }⟩
  else if c = '\n' then if q.lines then some ⟨tokens, .text q.addLineEnd⟩ else none
  else if c = '\r' then if q.lines then some ⟨tokens, .textReturn q⟩ else none
  else if isControl c then none
  else some ⟨tokens, .text (q.add c)⟩

/-- The character that a letter after a backslash stands for. -/
def escaped? : Char → Option Char
  | '"' => some '"'
  | '\\' => some '\\'
  | 'b' => some '\x08'
  | 'e' => some '\x1b'
  | 'f' => some '\x0c'
  | 'n' => some '\n'
  | 'r' => some '\r'
  | 't' => some '\t'
  | _ => none

/-- How many hexadecimal digits follow a letter after a backslash. -/
def hexDigits? : Char → Option Nat
  | 'x' => some 2
  | 'u' => some 4
  | 'U' => some 8
  | _ => none

/-- Skips a character between a backslash at the end of a line and the text that goes on. -/
def skip (tokens : List Token) (q : Quoted) (ended : Bool) (c : Char) : Option Scan :=
  if isBlankChar c then some ⟨tokens, .skipping q ended⟩
  else if c = '\n' then some ⟨tokens, .skipping q true⟩
  else if c = '\r' then some ⟨tokens, .skippingReturn q⟩
  else if ended then inText tokens q c
  else none

/-- Takes the character after a backslash. -/
def afterBackslash (tokens : List Token) (q : Quoted) (c : Char) : Option Scan :=
  match escaped? c, hexDigits? c with
  | some e, _ => some ⟨tokens, .text (q.add e)⟩
  | none, some n => some ⟨tokens, .hex q n 0⟩
  | none, none =>
      if q.lines && (isBlankChar c || c == '\n' || c == '\r') then skip tokens q false c else none

private def hexValue? (c : Char) : Option Nat :=
  if c.isDigit then some (c.toNat - '0'.toNat)
  else if 'a' ≤ c && c ≤ 'f' then some (c.toNat - 'a'.toNat + 10)
  else if 'A' ≤ c && c ≤ 'F' then some (c.toNat - 'A'.toNat + 10)
  else none

/-- Takes one more character; `none` if it cannot stand there. -/
def step (s : Scan) (c : Char) : Option Scan :=
  match s.pending with
  | .nothing => some (begin s.tokens c)
  | .word latest =>
      if isWordChar c then some ⟨s.tokens, .word (c :: latest)⟩
      else some (begin (.word (String.ofList latest.reverse) :: s.tokens) c)
  | .comment =>
      if c = '\n' || c = '\r' then some (begin s.tokens c)
      else if isControl c then none
      else some s
  | .carriageReturn => if c = '\n' then some (begin s.tokens c) else none
  | .opening quote =>
      if c = quote then some ⟨s.tokens, .twoQuotes quote⟩
      else inText s.tokens (.start quote false) c
  | .twoQuotes quote =>
      if c = quote then some ⟨s.tokens, .text (.start quote true)⟩
      else some (begin (.text "" false :: s.tokens) c)
  | .text q => inText s.tokens q c
  | .textReturn q => if c = '\n' then some ⟨s.tokens, .text q.addLineEnd⟩ else none
  | .closing q quotes =>
      if c = q.quote && quotes < 5 then some ⟨s.tokens, .closing q (quotes + 1)⟩
      else if 3 ≤ quotes then some (begin ((q.addQuotes (quotes - 3)).token :: s.tokens) c)
      else inText s.tokens (q.addQuotes quotes) c
  | .escape q => afterBackslash s.tokens q c
  | .hex q left value =>
      match hexValue? c with
      | none => none
      | some d =>
          let value := 16 * value + d
          if 1 < left then some ⟨s.tokens, .hex q (left - 1) value⟩
          else if value.isValidChar then some ⟨s.tokens, .text (q.add (Char.ofNat value))⟩
          else none
  | .skipping q ended => skip s.tokens q ended c
  | .skippingReturn q => if c = '\n' then some ⟨s.tokens, .skipping q true⟩ else none

def run (s : Scan) : List Char → Option Scan
  | [] => some s
  | c :: cs =>
      match s.step c with
      | some s => s.run cs
      | none => none

/-- The tokens in order, unless a token is left open. -/
def finish (s : Scan) : Option (List Token) :=
  match s.pending with
  | .nothing | .comment => some s.tokens.reverse
  | .word latest => some (.word (String.ofList latest.reverse) :: s.tokens).reverse
  | .twoQuotes _ => some (.text "" false :: s.tokens).reverse
  | .closing q quotes =>
      if 3 ≤ quotes then some ((q.addQuotes (quotes - 3)).token :: s.tokens).reverse else none
  | _ => none

end Scan

/-- The mark that may stand before the first character of a text. -/
def byteOrderMark : Char := '\uFEFF'

/-- The tokens of a text, if all of it can be scanned. -/
def tokens? (text : String) : Option (List Token) :=
  let cs := match text.toList with
    | c :: rest => if c = byteOrderMark then rest else c :: rest
    | [] => []
  (Scan.start.run cs).bind Scan.finish

end KeyedMarkup.Toml
