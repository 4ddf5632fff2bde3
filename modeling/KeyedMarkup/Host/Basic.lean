/-!
# Hosts

What a program asks of the machine that it runs on: files, the text given to it, and variables. The
questions are answered in a monad, so a program can run on a real machine and on one that is
held in memory.
-/

namespace KeyedMarkup

/-- Why a text could not be read. -/
inductive ReadFailure where
  | missing
  | notDirectory
  | directory
  | notText
  | other (message : String)
deriving DecidableEq, Inhabited

def ReadFailure.message : ReadFailure → String
  | .missing => "No such file or directory (os error 2)"
  | .notDirectory => "Not a directory (os error 20)"
  | .directory => "Is a directory (os error 21)"
  | .notText => "stream did not contain valid UTF-8"
  | .other message => message

/-- The text that some bytes encode. -/
def textOfBytes (bytes : ByteArray) : Except ReadFailure String :=
  match String.fromUTF8? bytes with
  | some text => .ok text
  | none => .error .notText

/-- The names of the steps from the top of a tree of files. -/
abbrev Place := List String

/-- The place that a step leads to: an empty one and a point to the place itself, and two points to
the one above it. -/
def placeAfter (place : Place) (step : String) : Place :=
  if step = "" || step = "." then place
  else if step = ".." then place.dropLast
  else place ++ [step]

/-- The place that a path from the top leads to. -/
def placeOf (path : String) : Place := (path.splitOn "/").foldl placeAfter []

/-- The paths of a place and of those above it, innermost first, each without a slash at its
end. -/
def pathsUpward (place : Place) : List String :=
  (List.range (place.length + 1)).reverse.map fun n =>
    "".intercalate ((place.take n).map ("/" ++ ·))

/-- The variables that are set, each with its value. -/
abbrev Environment := String → Option String

/-- `directories` are the current directory and those above it, innermost first, each without a
slash at its end. Other paths may start at the current directory. -/
structure Host (m : Type → Type) where
  directories : m (List String)
  isPresent : String → m Bool
  read : String → m (Except ReadFailure String)
  input : m (Except ReadFailure String)
  lookup : String → m (Option String)

namespace Host

variable {m : Type → Type} [Monad m]

/-- An environment that knows some of the variables. -/
def environment (host : Host m) (names : List String) : m Environment := do
  let known ← names.mapM fun name => do return (name, ← host.lookup name)
  return fun name => (known.lookup name).join

def firstPresent (host : Host m) : List String → m (Option String)
  | [] => return none
  | path :: rest => do
      if ← host.isPresent path then return some path
      host.firstPresent rest

end Host

end KeyedMarkup
