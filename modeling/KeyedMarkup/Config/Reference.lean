import KeyedMarkup.Host.Basic
import KeyedMarkup.Text.Alphanumeric

/-!
# References to variables

A text may refer to variables: `$NAME`, `${NAME}`, or `${NAME:-other}` with a text for a variable
that is not set. Two dollar signs stand for one, and a dollar sign that starts no reference stands
for itself. What a reference stands for is not searched for references again.
-/

namespace KeyedMarkup.Reference

/-- A character, or a reference with the text that stands for a variable that is not set. -/
inductive Piece where
  | char (c : Char)
  | variable (name : String) (fallback : Option String)
deriving DecidableEq

def isNameChar (c : Char) : Bool := isAlphanumeric c || c == '_'

/-- The characters before the first `:-` and, if there is one, those after it. -/
def splitFallback : List Char → List Char × Option (List Char)
  | [] => ([], none)
  | ':' :: '-' :: rest => ([], some rest)
  | c :: rest =>
      let (name, fallback) := splitFallback rest
      (c :: name, fallback)

/-- The reference with these characters between its braces. Without a name there is no text for a
variable that is not set. -/
def braced (inner : List Char) : Piece :=
  match splitFallback inner with
  | (name@(_ :: _), fallback) => .variable (String.ofList name) (fallback.map String.ofList)
  | ([], _) => .variable (String.ofList inner) none

/-- The characters before the first closing brace and those after it. -/
def splitBrace : List Char → Option (List Char × List Char)
  | [] => none
  | c :: rest =>
      if c = '\x7d' then some ([], rest)
      else (splitBrace rest).map fun (inner, after) => (c :: inner, after)

theorem length_splitBrace {cs inner after : List Char} (h : splitBrace cs = some (inner, after)) :
    after.length < cs.length := by
  induction cs generalizing inner with
  | nil => simp [splitBrace] at h
  | cons c rest ih =>
      simp only [splitBrace] at h
      split at h
      · simp_all
      · obtain ⟨⟨i, a⟩, hr, he⟩ := Option.map_eq_some_iff.mp h
        simp only [Prod.mk.injEq] at he
        have := ih (he.2 ▸ hr)
        simp only [List.length_cons]
        omega

private theorem length_dropWhile_le (p : Char → Bool) (cs : List Char) :
    (cs.dropWhile p).length ≤ cs.length := by
  induction cs with
  | nil => simp
  | cons c rest ih =>
      simp only [List.dropWhile_cons]
      split
      · simp only [List.length_cons]; omega
      · simp

/-- The pieces of a text. -/
def pieces : List Char → List Piece
  | [] => []
  | c :: rest =>
      if c = '$' then
        match rest with
        | [] => [.char c]
        | d :: rest =>
            if d = '\x7b' then
              match _ : splitBrace rest with
              | some (inner, after) => braced inner :: pieces after
              | none => .char c :: .char d :: pieces rest
            else if isNameChar d then
              .variable (String.ofList (d :: rest.takeWhile isNameChar)) none ::
                pieces (rest.dropWhile isNameChar)
            else if d = '$' then .char c :: pieces rest
            else .char c :: .char d :: pieces rest
      else .char c :: pieces rest
termination_by cs => cs.length
decreasing_by
  all_goals simp only [List.length_cons]
  · have := length_splitBrace (by assumption)
    omega
  · omega
  · have := length_dropWhile_le isNameChar rest
    omega
  · omega
  · omega
  · omega

def piecesOf (text : String) : List Piece := pieces text.toList

/-- The variables that a text refers to. -/
def names (text : String) : List String :=
  (piecesOf text).filterMap fun piece =>
    match piece with
    | .char _ => none
    | .variable name _ => some name

/-- What a piece stands for, or the name of the variable that is not set. -/
def Piece.value (environment : Environment) : Piece → Except String (List Char)
  | .char c => .ok [c]
  | .variable name fallback =>
      match (environment name).or fallback with
      | some text => .ok text.toList
      | none => .error name

/-- What some pieces stand for, or the name of the first variable that is not set. -/
def valueOfAll (environment : Environment) : List Piece → Except String (List Char)
  | [] => .ok []
  | piece :: rest => do
      let head ← piece.value environment
      let tail ← valueOfAll environment rest
      return head ++ tail

/-- What a text stands for, or the name of the first variable that is not set. -/
def expand (environment : Environment) (text : String) : Except String String :=
  (valueOfAll environment (piecesOf text)).map String.ofList

end KeyedMarkup.Reference
