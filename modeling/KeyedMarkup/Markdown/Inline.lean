import KeyedMarkup.Markdown.Emphasis
import KeyedMarkup.Markdown.Target

/-!
# Inline content

The text of a paragraph, heading or table cell is read from left to right. A step takes one
character; it looks at those that follow and says how many of them it has taken as well. What
stands in brackets is kept apart until the closing bracket tells whether it is a link.
-/

namespace KeyedMarkup.Markdown

namespace Inline

/-- An open bracket: whether it is that of an image, whether it may become a link, the place and
the text after it, and the pieces before it, latest first. -/
structure Bracket where
  image : Bool
  active : Bool
  place : Nat
  source : List Char
  before : List Piece

/-- The pieces since the last open bracket and the open brackets, both latest first; the place in
the text, the character before it, and how many characters are taken already. Closing brackets in
`spent` have ended a label and end no other. -/
structure State where
  pieces : List Piece
  brackets : List Bracket
  place : Nat
  previous : Char
  skip : Nat
  spent : List Nat

namespace State

def start : State := ⟨[], [], 0, '\n', 0, []⟩

def addChar (st : State) (c : Char) : State :=
  match st.pieces with
  | .text latest :: rest => { st with pieces := .text (c :: latest) :: rest }
  | pieces => { st with pieces := .text [c] :: pieces }

def addChars (st : State) (cs : List Char) : State := cs.foldl addChar st

def addEvents (st : State) (es : List Doc.Event) : State :=
  { st with pieces := .events es :: st.pieces }

/-- Takes `n` more characters than the one that the step is about. -/
def taking (st : State) (n : Nat) : State := { st with skip := n }

end State

/-! ## Line breaks -/

private def isIndent (c : Char) : Bool := c == ' ' || c == '\t'

private def indentLength (cs : List Char) : Nat := (cs.takeWhile isIndent).length

/-- The pieces without the gaps at their end, and the number of these. -/
private def trimPieces : List Piece → List Piece × Nat
  | .text latest :: rest =>
      let gaps := (latest.takeWhile isGap).length
      match latest.drop gaps with
      | [] => (rest, gaps)
      | latest => (.text latest :: rest, gaps)
  | pieces => (pieces, 0)

/-- A line break is hard after two gaps. -/
private def lineBreak (st : State) (cs : List Char) : State :=
  let (pieces, gaps) := trimPieces st.pieces
  ({ st with pieces }.addEvents [if 2 ≤ gaps then .hardBreak else .softBreak]).taking
    (indentLength cs)

/-! ## Code -/

/-- How many characters there are before the next run of exactly `n` backticks; `run` backticks
end where the search stands. -/
private def codeLength? (n run taken : Nat) : List Char → Option Nat
  | [] => if run = n then some (taken - n) else none
  | c :: cs =>
      if c = '\x60' then codeLength? n (run + 1) (taken + 1) cs
      else if run = n then some (taken - n)
      else codeLength? n 0 (taken + 1) cs

/-- The text of a code span: line breaks are spaces, and one space on both sides is dropped unless
there are spaces only. -/
private def codeText (cs : List Char) : String :=
  let cs := cs.map fun c => if c == '\n' then ' ' else c
  let inner :=
    if cs.head? == some ' ' && cs.getLast? == some ' ' && !cs.all (· == ' ') then
      cs.tail.dropLast
    else cs
  String.ofList inner

/-- A run of backticks, followed by `cs`. -/
private def backticks (st : State) (cs : List Char) : State :=
  let more := (cs.takeWhile (· == '\x60')).length
  let n := more + 1
  let after := cs.drop more
  match codeLength? n 0 0 after with
  | some length =>
      (st.addEvents [.code (codeText (after.take length))]).taking (more + length + n)
  | none => (st.addChars (List.replicate n '\x60')).taking more

/-! ## Addresses and tags -/

private def isSchemeChar (c : Char) : Bool :=
  isAsciiAlphanumeric c || c == '.' || c == '-' || c == '+'

/-- The address with a scheme before the next `>`. -/
private def uri? (cs : List Char) : Option (List Char) :=
  let scheme := cs.takeWhile isSchemeChar
  let rest := cs.drop scheme.length
  let body := rest.takeWhile fun c => 0x20 < c.toNat && c != '<' && c != '>'
  if scheme.head?.any isAsciiAlpha && 2 ≤ scheme.length && scheme.length ≤ 32 &&
      rest.head? == some ':' && (rest.drop body.length).head? == some '>' then
    some (scheme ++ body)
  else none

private def isMailboxChar (c : Char) : Bool :=
  isAsciiAlphanumeric c || ".!#$%&'*+/=?^_\x60\x7b|\x7d~-".toList.contains c

private def isHostLabel (cs : List Char) : Bool :=
  !cs.isEmpty && cs.length ≤ 63 && cs.head? != some '-' && cs.getLast? != some '-' &&
    cs.all fun c => isAsciiAlphanumeric c || c == '-'

/-- The e-mail address before the next `>`. -/
private def email? (cs : List Char) : Option (List Char) :=
  let mailbox := cs.takeWhile isMailboxChar
  match cs.drop mailbox.length with
  | '@' :: rest =>
      let host := rest.takeWhile fun c => isAsciiAlphanumeric c || c == '-' || c == '.'
      let labels := (String.ofList host).splitOn "."
      if !mailbox.isEmpty && labels.all (fun l => isHostLabel l.toList) &&
          (rest.drop host.length).head? == some '>' then
        some (mailbox ++ '@' :: host)
      else none
  | _ => none

private def plainLink (url : String) : List Doc.Event :=
  [.start (.link url ""), .text url, .stop]

/-- A `<` followed by `cs`. -/
private def angle (st : State) (cs : List Char) : State :=
  if cs.head? == some '\\' then st.addChar '<'
  else
    match uri? cs <|> email? cs with
    | some address => (st.addEvents (plainLink (String.ofList address))).taking (address.length + 1)
    | none =>
        match Html.inline? cs with
        | some n =>
            (st.addEvents [.inlineHtml (String.ofList ('<' :: cs.take n))]).taking n
        | none => st.addChar '<'

/-! ## Brackets -/

private def openBracket (st : State) (image : Bool) (cs : List Char) : State :=
  { st with
    pieces := []
    brackets :=
      ⟨image, true, st.place + (if image then 2 else 1), cs, st.pieces⟩ :: st.brackets }

private def bracketText (b : Bracket) : Piece := .text (if b.image then ['[', '!'] else ['['])

/-- Takes the last open bracket as text. -/
private def abandon (st : State) (b : Bracket) (outer : List Bracket) : State :=
  { st with pieces := st.pieces ++ bracketText b :: b.before, brackets := outer }

private def Bracket.deactivated (b : Bracket) : Bracket :=
  if b.image then b else { b with active := false }

/-- Makes a link or an image of what stands since the last open bracket. A link may not hold
another. -/
private def makeLink (st : State) (b : Bracket) (outer : List Bracket) (target : Target) : State :=
  let content := Emphasis.resolve st.pieces.reverse
  let tag : Doc.Tag :=
    if b.image then .image target.url target.title else .link target.url target.title
  { st with
    pieces := .events (.start tag :: content ++ [.stop]) :: b.before
    brackets := if b.image then outer else outer.map Bracket.deactivated }

/-- The label that the bracket and the closing bracket at this place enclose. -/
private def ownLabel? (st : State) (b : Bracket) : Option String :=
  match label? b.source with
  | some (label, n) => if b.place + n = st.place + 1 then some label else none
  | none => none

/-- The target that brackets name, by a label of their own or by one that follows them, and how
many characters follow. The flag says whether a label follows. -/
private def named? (targets : Targets) (st : State) (b : Bracket) (cs : List Char) :
    Option Target × Nat × Bool :=
  let own (n : Nat) : Option Target × Nat × Bool :=
    if st.spent.contains st.place then (none, 0, false)
    else ((ownLabel? st b).bind targets.get?, n, false)
  match cs with
  | '[' :: ']' :: _ => own 2
  | '[' :: inner =>
      match label? inner with
      | some (label, n) => (targets.get? label, n + 1, true)
      | none => own 0
  | _ => own 0

/-- A closing bracket, followed by `cs`. -/
private def closeBracket (targets : Targets) (st : State) (cs : List Char) : State :=
  match st.brackets with
  | [] => st.addChar ']'
  | b :: outer =>
      if !b.active then (abandon st b outer).addChar ']'
      else
        match inlineTarget? cs with
        | some (target, n) => (makeLink st b outer target).taking n
        | none =>
            match named? targets st b cs with
            | (some target, n, _) => (makeLink st b outer target).taking n
            | (none, n, follows) =>
                let st := if follows then { st with spent := (st.place + n) :: st.spent } else st
                (abandon st b outer).addChar ']'

/-! ## All steps -/

/-- A run of marks. More than two tildes mark nothing. -/
private def marksRun (st : State) (c : Char) (cs : List Char) : State :=
  let more := (cs.takeWhile (· == c)).length
  let next := (cs.drop more).head?.getD '\n'
  let run := Run.between c (more + 1) st.previous next
  if (run.opens || run.closes) && (c != '~' || more < 2) then
    { st with pieces := .run run :: st.pieces }.taking more
  else (st.addChars (List.replicate (more + 1) c)).taking more

private def backslash (st : State) (cs : List Char) : State :=
  match cs with
  | '\n' :: after => (st.addEvents [.hardBreak]).taking (1 + indentLength after)
  | c :: _ => if isAsciiPunctuation c then (st.addChar c).taking 1 else st.addChar '\\'
  | [] => st.addChar '\\'

private def ampersand (st : State) (cs : List Char) : State :=
  match reference? cs with
  | some (n, text) => (st.addEvents [.text (String.ofList text)]).taking n
  | none => st.addChar '&'

/-- Takes one character, which `cs` follows. -/
def step (gfm : Bool) (targets : Targets) (st : State) (c : Char) (cs : List Char) : State :=
  match c with
  | '\n' => lineBreak st cs
  | '\\' => backslash st cs
  | '\x60' => backticks st cs
  | '<' => angle st cs
  | '&' => ampersand st cs
  | '[' => openBracket st false cs
  | '!' =>
      match cs with
      | '[' :: after => (openBracket st true after).taking 1
      | _ => st.addChar '!'
  | ']' => closeBracket targets st cs
  | '*' | '_' => marksRun st c cs
  | '~' => if gfm then marksRun st c cs else st.addChar c
  | _ => st.addChar c

def run (gfm : Bool) (targets : Targets) (st : State) : List Char → State
  | [] => st
  | c :: cs =>
      let after :=
        if 0 < st.skip then { st with skip := st.skip - 1 } else step gfm targets st c cs
      run gfm targets { after with place := st.place + 1, previous := c } cs

private def abandonAll (pieces : List Piece) : List Bracket → List Piece
  | [] => pieces
  | b :: outer => abandonAll (pieces ++ bracketText b :: b.before) outer

/-- The events of a text, with tildes as marks if `gfm` is set. -/
def events (gfm : Bool) (targets : Targets) (cs : List Char) : List Doc.Event :=
  let st := run gfm targets .start cs
  Emphasis.resolve (abandonAll st.pieces st.brackets).reverse

end Inline

end KeyedMarkup.Markdown
