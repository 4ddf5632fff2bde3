import KeyedMarkup.Command.Run

/-!
# The program

The host that is the machine at hand, and the run of the program on it.
-/

namespace KeyedMarkup

private def notDirectoryCode : UInt32 := 20

private def failureOf : IO.Error → ReadFailure
  | .noFileOrDirectory _ _ _ => .missing
  | .inappropriateType _ code details =>
      if code = notDirectoryCode || details = "not a directory" then .notDirectory else .directory
  | e => .other (toString e)

private def textOf (read : IO ByteArray) : BaseIO (Except ReadFailure String) := do
  match ← read.toBaseIO with
  | .ok bytes => return textOfBytes bytes
  | .error e => return .error (failureOf e)

private partial def readAll (stream : IO.FS.Stream) (read : ByteArray) : IO ByteArray := do
  let more ← stream.read 65536
  if more.isEmpty then return read else readAll stream (read ++ more)

/-- The machine at hand. -/
def Host.machine : Host BaseIO where
  directories := do
    match ← IO.currentDir.toBaseIO with
    | .ok path => return pathsUpward (placeOf path.toString)
    | .error _ => return []
  isPresent path := do
    match ← (IO.FS.Handle.mk path .read).toBaseIO with
    | .ok _ => return true
    | .error e =>
        match failureOf e with
        | .missing | .notDirectory => return false
        | _ => return true
  read path := textOf (IO.FS.readBinFile path)
  input := textOf (do readAll (← IO.getStdin) .empty)
  lookup := IO.getEnv

end KeyedMarkup

def main (arguments : List String) : IO UInt32 := do
  let outcome ← (KeyedMarkup.Command.run KeyedMarkup.Host.machine arguments :
    BaseIO KeyedMarkup.Command.Outcome)
  IO.print outcome.output
  IO.eprint outcome.complaint
  return outcome.exit.toUInt32
