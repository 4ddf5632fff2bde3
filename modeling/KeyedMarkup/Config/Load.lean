import KeyedMarkup.Config.File

/-!
# Loading a configuration

The configuration of a program comes from the file that it is given, which must exist, or from the
first one found in the current directory or above it. Without a file all settings have their
defaults.
-/

namespace KeyedMarkup.Config

def fileName : String := "mdom.toml"

variable {m : Type → Type} [Monad m]

/-- The settings of a file as they are written. -/
def readFile (host : Host m) (path : String) : m (Except Error Config) := do
  match ← host.read path with
  | .error failure => return .error (.unreadable failure)
  | .ok text =>
      match ofText? text with
      | some c => return .ok { c with path := some path }
      | none => return .error .malformed

/-- The file in the current directory or the nearest one above it that has one. -/
def discover (host : Host m) : m (Option String) := do
  host.firstPresent ((← host.directories).map (· ++ "/" ++ fileName))

/-- The settings as they are written in the file that is given or found. -/
def written (host : Host m) (given : Option String) : m (Except Error Config) := do
  match given with
  | some path =>
      if ← host.isPresent path then readFile host path else return .error (.notFound path)
  | none =>
      match ← discover host with
      | some path => readFile host path
      | none => return .ok {}

/-- The settings that hold in the end. -/
def load (host : Host m) (given : Option String) (o : Overrides) : m (Except Error Config) := do
  match ← written host given with
  | .error e => return .error e
  | .ok c => return c.settled (← host.environment (Reference.names c.keyPrefix)) o

end KeyedMarkup.Config
