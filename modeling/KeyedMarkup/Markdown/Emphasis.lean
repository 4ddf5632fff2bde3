import KeyedMarkup.Doc.Event
import KeyedMarkup.Text.Blank
import KeyedMarkup.Text.Punctuation

/-!
# Emphasis

Runs of `*`, `_` and `~` mark emphasis. A run may open or close, depending on the characters on
both sides. Reading from left to right, a run that may close looks for the nearest run before it
that fits; what stands between the two becomes emphasis, in pairs from the inside out, and the runs
between them that found no partner stay as text.
-/

namespace KeyedMarkup.Markdown

/-- A run of marks as it is written. -/
structure Run where
  mark : Char
  length : Nat
  opens : Bool
  closes : Bool
deriving Inhabited

namespace Run

/-- Asterisks and double tildes may stand within a word. -/
def withinWords (mark : Char) (length : Nat) : Bool := mark == '*' || (mark == '~' && 1 < length)

def opensBetween (mark : Char) (length : Nat) (previous next : Char) : Bool :=
  !isBlank next &&
    ((mark == '*' && !isPunctuation next) || (mark == '~' && 1 < length) ||
      (mark == '~' && previous == '~' && !isPunctuation next) ||
      isBlank previous || isPunctuation previous)

def closesBetween (mark : Char) (length : Nat) (previous next : Char) : Bool :=
  !isBlank previous &&
    ((withinWords mark length && !isPunctuation previous) || (mark == '~' && previous == '~') ||
      isBlank next || isPunctuation next)

/-- The run of a mark between two characters; the ends of a text count as line breaks. -/
def between (mark : Char) (length : Nat) (previous next : Char) : Run :=
  ⟨mark, length, opensBetween mark length previous next, closesBetween mark length previous next⟩

def opensAndCloses (r : Run) : Bool := r.opens && r.closes

/-- Whether a run that may close fits one that may open. Tildes need runs of one length; of two
runs of which one could do both, the lengths must not add up to a multiple of three, unless both
are multiples of three. -/
def fits (closing opening : Run) : Bool :=
  closing.mark == opening.mark && (closing.mark != '~' || closing.length == opening.length) &&
    ((!closing.opensAndCloses && !opening.opensAndCloses) ||
      (closing.length + opening.length) % 3 != 0 || closing.length % 3 == 0)

end Run

/-- A part of a text: characters, latest first, finished events, or a run of marks. -/
inductive Piece where
  | text (latest : List Char)
  | events (es : List Doc.Event)
  | run (r : Run)
deriving Inhabited

namespace Emphasis

/-- A run that may open, how many of its marks are left, and what follows it, latest first. -/
structure Opener where
  run : Run
  left : Nat
  after : List Doc.Event

private def marks (r : Run) (n : Nat) : List Doc.Event :=
  if n = 0 then [] else [.text (String.ofList (List.replicate n r.mark))]

/-- The events of an opener that found no partner, latest first. -/
def Opener.asText (o : Opener) : List Doc.Event := o.after ++ marks o.run o.left

/-- The tags that `n` marks on both sides give, outermost first. -/
def tags (mark : Char) (n : Nat) : List Doc.Tag :=
  if mark = '~' then [.strikethrough]
  else (if n % 2 = 1 then [.emphasis] else []) ++ List.replicate (n / 2) .strong

/-- The events within `n` marks on both sides, latest first. -/
def wrap (mark : Char) (n : Nat) (content : List Doc.Event) : List Doc.Event :=
  let tags := tags mark n
  tags.map (fun _ => Doc.Event.stop) ++ content ++ (tags.map Doc.Event.start).reverse

/-- The events before the first opener, latest first, the openers, latest first, and the number of
openers among which no tilde will find a partner any more. -/
structure State where
  base : List Doc.Event
  openers : List Opener
  tildeFloor : Nat

namespace State

/-- Adds events, latest first. -/
def add (st : State) (es : List Doc.Event) : State :=
  match st.openers with
  | [] => { st with base := es ++ st.base }
  | o :: below => { st with openers := { o with after := es ++ o.after } :: below }

/-- The latest opener that fits, with what follows it and the openers before it. -/
private def find? (r : Run) (content : List Doc.Event) :
    List Opener → Option (Opener × List Doc.Event × List Opener)
  | [] => none
  | o :: below =>
      if r.fits o.run then some (o, content ++ o.after, below)
      else find? r (content ++ o.asText) below

/-- Looks for the partner of `left` marks of a run; `none` if there is none. -/
private def close? (st : State) (r : Run) (left : Nat) : Option (State × Nat) :=
  let reachable := if r.mark = '~' then st.openers.length - st.tildeFloor else st.openers.length
  match find? r [] (st.openers.take reachable) with
  | none => none
  | some (o, content, below) =>
      let n := min left o.left
      let openers := below ++ st.openers.drop reachable
      let st : State := ⟨st.base, openers, min st.tildeFloor openers.length⟩
      let wrapped := wrap r.mark n content
      if n < o.left then
        some (⟨st.base, ⟨o.run, o.left - n, wrapped⟩ :: st.openers, st.tildeFloor⟩, left - n)
      else some (st.add wrapped, left - n)

/-- Closes as many of `left` marks as find a partner; `fuel` bounds their number. -/
private def closeAll (r : Run) : Nat → State → Nat → State × Nat
  | 0, st, left => (st, left)
  | fuel + 1, st, left =>
      if left = 0 then (st, 0)
      else
        match st.close? r left with
        | some (st, left) => closeAll r fuel st left
        | none => (if r.mark = '~' then { st with tildeFloor := st.openers.length } else st, left)

/-- Takes a run: it closes what it can, and what is left may open. -/
def takeRun (st : State) (r : Run) : State :=
  let (st, left) := if r.closes then closeAll r r.length st r.length else (st, r.length)
  if left = 0 then st
  else if r.opens then { st with openers := ⟨r, left, []⟩ :: st.openers }
  else st.add (marks r left)

def take (st : State) : Piece → State
  | .text latest => st.add [.text (String.ofList latest.reverse)]
  | .events es => st.add es.reverse
  | .run r => st.takeRun r

/-- All events in order, the openers that are left as text. -/
def finish (st : State) : List Doc.Event :=
  (st.openers.foldr (fun o es => o.asText ++ es) st.base).reverse

end State

/-- The events of a sequence of pieces. -/
def resolve (pieces : List Piece) : List Doc.Event :=
  (pieces.foldl State.take ⟨[], [], 0⟩).finish

end Emphasis

end KeyedMarkup.Markdown
