import KeyedMarkup.Markdown.Line

/-!
# HTML in Markdown

Tags, comments, processing instructions, declarations and CDATA sections are recognized without
being understood. A tag is read by a machine with one state for each place within a tag; the
others end at the first occurrence of a fixed text.
-/

namespace KeyedMarkup.Markdown

def isAsciiAlpha (c : Char) : Bool := ('a' ≤ c && c ≤ 'z') || ('A' ≤ c && c ≤ 'Z')

def isAsciiAlphanumeric (c : Char) : Bool := isAsciiAlpha c || c.isDigit

def startsWithText (text : String) (cs : List Char) : Bool := text.toList.isPrefixOf cs

namespace Html

/-- A place within an opening or closing tag, after the first letter of its name. -/
inductive Place where
  | name
  | gap
  | attribute
  | afterAttribute
  | beforeValue
  | doubleQuoted
  | singleQuoted
  | unquoted
  | afterValue
  | slash
  | closingName
  | closingGap
  | done
deriving DecidableEq

private def isSpaceOrBreak (c : Char) : Bool := isGap c || isBreak c

private def isNameChar (c : Char) : Bool := isAsciiAlphanumeric c || c == '-'

private def startsAttribute (c : Char) : Bool := isAsciiAlpha c || c == '_' || c == ':'

private def isAttributeChar (c : Char) : Bool :=
  isAsciiAlphanumeric c || c == '_' || c == '.' || c == ':' || c == '-'

private def isUnquotedChar (c : Char) : Bool :=
  !(isSpaceOrBreak c || c == '"' || c == '\'' || c == '=' || c == '<' || c == '>' || c == '\x60')

private def endOr (c : Char) (other : Option Place) : Option Place :=
  if c = '>' then some .done else if c = '/' then some .slash else other

/-- The place after one more character, if the tag can go on with it. -/
def Place.next (p : Place) (c : Char) : Option Place :=
  match p with
  | .name =>
      if isNameChar c then some .name
      else endOr c (if isSpaceOrBreak c then some .gap else none)
  | .gap =>
      if isSpaceOrBreak c then some .gap
      else endOr c (if startsAttribute c then some .attribute else none)
  | .attribute =>
      if isAttributeChar c then some .attribute
      else if isSpaceOrBreak c then some .afterAttribute
      else endOr c (if c = '=' then some .beforeValue else none)
  | .afterAttribute =>
      if isSpaceOrBreak c then some .afterAttribute
      else if c = '=' then some .beforeValue
      else endOr c (if startsAttribute c then some .attribute else none)
  | .beforeValue =>
      if isSpaceOrBreak c then some .beforeValue
      else if c = '"' then some .doubleQuoted
      else if c = '\'' then some .singleQuoted
      else if isUnquotedChar c then some .unquoted else none
  | .doubleQuoted => some (if c = '"' then .afterValue else .doubleQuoted)
  | .singleQuoted => some (if c = '\'' then .afterValue else .singleQuoted)
  | .unquoted =>
      if isUnquotedChar c then some .unquoted
      else if isSpaceOrBreak c then some .gap
      else if c = '>' then some .done else none
  | .afterValue => endOr c (if isSpaceOrBreak c then some .gap else none)
  | .slash => if c = '>' then some .done else none
  | .closingName =>
      if isNameChar c then some .closingName
      else if isGap c then some .closingGap
      else if c = '>' then some .done else none
  | .closingGap =>
      if isGap c then some .closingGap else if c = '>' then some .done else none
  | .done => none

/-- How many characters a tag has from a given place on, `taken` having been counted before. -/
def tagLength? (p : Place) (taken : Nat) : List Char → Option Nat
  | [] => none
  | c :: cs =>
      match p.next c with
      | some .done => some (taken + 1)
      | some p => tagLength? p (taken + 1) cs
      | none => none

/-- The length of the tag after a `<`. -/
def tag? : List Char → Option Nat
  | '/' :: c :: cs => if isAsciiAlpha c then tagLength? .closingName 2 cs else none
  | c :: cs => if isAsciiAlpha c then tagLength? .name 1 cs else none
  | [] => none

/-- How many characters there are up to and with the first occurrence of a text. -/
def through? (text : List Char) (taken : Nat) : List Char → Option Nat
  | [] => none
  | c :: cs =>
      if text.isPrefixOf (c :: cs) then some (taken + text.length)
      else through? text (taken + 1) cs

/-- The length of the comment after `<!-`; the second hyphen may already belong to its end. -/
private def comment? (cs : List Char) : Option Nat :=
  let hyphens := (cs.takeWhile (· == '-')).length
  if hyphens = 0 then none
  else
    match cs.drop hyphens with
    | '>' :: _ => some (hyphens + 1)
    | after => through? ['-', '-', '>'] hyphens after

/-- The length of the inline HTML after a `<`. -/
def inline? (cs : List Char) : Option Nat :=
  match cs with
  | '!' :: '-' :: after => (comment? after).map (· + 2)
  | '!' :: after =>
      if startsWithText "[CDATA[" after then through? [']', ']', '>'] 8 (after.drop 7)
      else
        match after with
        | c :: _ => if isAsciiAlpha c then through? ['>'] 1 after else none
        | [] => none
  | '?' :: after => through? ['?', '>'] 1 after
  | _ => tag? cs

/-- Tags whose block ends only at their closing tag. -/
private def verbatimTags : List (String × String) :=
  [("pre", "</pre>"), ("style", "</style>"), ("script", "</script>"), ("textarea", "</textarea>")]

/-- Tags that start an HTML block wherever they stand. -/
private def blockTags : List String :=
  ["address", "article", "aside", "base", "basefont", "blockquote", "body", "caption", "center",
    "col", "colgroup", "dd", "details", "dialog", "dir", "div", "dl", "dt", "fieldset",
    "figcaption", "figure", "footer", "form", "frame", "frameset", "h1", "h2", "h3", "h4", "h5",
    "h6", "head", "header", "hr", "html", "iframe", "legend", "li", "link", "main", "menu",
    "menuitem", "nav", "noframes", "ol", "optgroup", "option", "p", "param", "search", "section",
    "summary", "table", "tbody", "td", "tfoot", "th", "thead", "title", "tr", "track", "ul"]

private def lowered (cs : List Char) : String := String.ofList (cs.map Char.toLower)

/-- The text that ends the HTML block of a line, if it is one with an end of its own; the line is
given without its `<`. -/
def blockEnd? (cs : List Char) : Option String :=
  let verbatim := verbatimTags.find? fun t =>
    lowered (cs.take t.1.length) == t.1 &&
      match cs.drop t.1.length with
      | c :: _ => isSpaceOrBreak c || c == '>'
      | [] => true
  match verbatim with
  | some t => some t.2
  | none =>
      if startsWithText "!--" cs then some "-->"
      else if startsWithText "?" cs then some "?>"
      else if startsWithText "![CDATA[" cs then some "]]>"
      else
        match cs with
        | '!' :: c :: _ => if isAsciiAlpha c then some ">" else none
        | _ => none

/-- Whether a line, without its `<`, starts with a tag that starts an HTML block. -/
def startsBlock (cs : List Char) : Bool :=
  let cs := match cs with
    | '/' :: cs => cs
    | cs => cs
  let name := cs.takeWhile isAsciiAlphanumeric
  blockTags.contains (lowered name) &&
    match cs.drop name.length with
    | [] => true
    | c :: after => c == ' ' || c == '\t' || c == '>' || (c == '/' && after.head? == some '>')

/-- Whether a line, without its `<`, is a single complete tag. -/
def isLoneTag (cs : List Char) : Bool :=
  match tag? cs with
  | some n => isBlankRest (cs.drop n)
  | none => false

/-- Whether a text occurs in a line. -/
def occurs (text : String) (cs : List Char) : Bool := (through? text.toList 0 cs).isSome

end Html

end KeyedMarkup.Markdown
