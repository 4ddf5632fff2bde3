import KeyedMarkup.Host.Basic

/-!
# Hosts held in memory

A tree of files, in which a path is followed step by step from the current directory or from the
top, and the host that has these files, a current directory, an input and variables.
-/

namespace KeyedMarkup

inductive Entry where
  | directory
  | file (bytes : ByteArray)
deriving Inhabited

/-- A place that leads to an entry is a directory, listed or not. -/
structure Files where
  entries : List (Place × Entry)
deriving Inhabited

namespace Files

/-- The files by their paths from the top. -/
def ofList (items : List (String × Entry)) : Files := ⟨items.map fun e => (placeOf e.1, e.2)⟩

def entry? (files : Files) (place : Place) : Option Entry :=
  match files.entries.lookup place with
  | some entry => some entry
  | none =>
      if place.isEmpty || files.entries.any fun e => place.isPrefixOf e.1 then some .directory
      else none

/-- Follows the steps of a path. Each leads on from a directory only. -/
def follow (files : Files) (place : Place) : List String → Except ReadFailure (Place × Entry)
  | [] =>
      match files.entry? place with
      | some entry => .ok (place, entry)
      | none => .error .missing
  | step :: rest =>
      match files.entry? place with
      | none => .error .missing
      | some (.file _) => .error .notDirectory
      | some .directory => files.follow (placeAfter place step) rest

/-- The entry at a path that starts at the top, if it starts with a slash, or at a place. -/
def find (files : Files) (current : Place) (path : String) : Except ReadFailure Entry :=
  if path = "" then .error .missing
  else
    let start := if path.toList.head? = some '/' then [] else current
    (files.follow start (path.splitOn "/")).map (·.2)

def read (files : Files) (current : Place) (path : String) : Except ReadFailure String :=
  match files.find current path with
  | .ok (.file bytes) => textOfBytes bytes
  | .ok .directory => .error .directory
  | .error failure => .error failure

end Files

/-- The host that has some files, a current directory, an input and variables. -/
def Host.held (files : Files) (current : Place) (input : ByteArray) (environment : Environment) :
    Host Id where
  directories := pathsUpward current
  isPresent path := (files.find current path).isOk
  read path := files.read current path
  input := textOfBytes input
  lookup := environment

end KeyedMarkup
