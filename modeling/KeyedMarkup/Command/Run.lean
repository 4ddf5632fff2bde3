import KeyedMarkup.Command.Arguments
import KeyedMarkup.Config.Load
import KeyedMarkup.Doc.Json
import KeyedMarkup.Hypertext.Json
import KeyedMarkup.Keyed.Json
import KeyedMarkup.Keyed.Markup
import KeyedMarkup.Markdown.Document
import KeyedMarkup.Render.Walk

/-!
# Running the program

A run loads the configuration, then reads the source, decodes it, and writes what is asked for.
Whatever fails first is what the run reports.
-/

namespace KeyedMarkup.Command

/-- What a run leaves: the exit code, and the texts for output and for errors. -/
structure Outcome where
  exit : UInt8
  output : String := ""
  complaint : String := ""
deriving DecidableEq, Inhabited

inductive Error where
  | config (e : Config.Error)
  | unreadable (failure : ReadFailure)
  | malformed
  | render (e : Render.Error)

def Error.message : Error → String
  | .config e => e.message
  | .unreadable failure => failure.message
  | .malformed => "Invalid JSON: no document in this text"
  | .render e => e.message

/-- The variable that gives a key prefix if the command line has none. -/
def keyPrefixVariable : String := "MDOM_KEY_PREFIX"

/-- The path that stands for the input. -/
def inputPath : String := "-"

def versionText : String := "mdom 0.1.0\n"

def helpText : String :=
  "Usage: mdom render [OPTIONS] [FILE]\n\n" ++
  "  -f, --format <html|json|hast>    what is written [default: html]\n" ++
  "      --input <markdown|json>      what is read [default: markdown]\n" ++
  "  -c, --config <PATH>              configuration file [default: the nearest mdom.toml]\n" ++
  "      --no-sanitize                keep all tags and attributes\n" ++
  "      --allow-dangerous-html       keep raw HTML\n" ++
  "      --key-prefix <TEXT>          start of every key\n" ++
  "      --no-gfm                     plain CommonMark\n" ++
  "  -v, --verbose                    tell more\n"

def misuseText : String := "error: these arguments are not understood; see mdom --help\n"

def Halt.outcome : Halt → Outcome
  | .help => ⟨0, helpText, ""⟩
  | .version => ⟨0, versionText, ""⟩
  | .misuse => ⟨2, "", misuseText⟩

/-- The settings of a command line, with a key prefix that it does not give itself. -/
def Arguments.overrides (a : Arguments) (keyPrefix : Option String) : Overrides where
  sanitize := if a.noSanitize then some false else none
  allowDangerousHtml := if a.allowDangerousHtml then some true else none
  keyPrefix := a.keyPrefix.or keyPrefix
  gfm := if a.noGfm then some false else none

def decode (o : Render.Options) (input : Input) (source : String) : Except Error Doc.Node :=
  match input with
  | .markdown => .ok (Doc.Node.ofMarkdown o.gfm source)
  | .json =>
      match Doc.Node.ofJsonText? source with
      | some tree => .ok tree
      | none => .error .malformed

def write (o : Render.Options) (format : Format) (tree : Doc.Node) : Except Render.Error String :=
  match format with
  | .markup => (Render.render o tree).outcome.map fun e => e.markup ++ "\n"
  | .keyed => (Render.render o tree).outcome.map fun e => e.json.pretty ++ "\n"
  | .hypertext => (o.prepare tree).map fun n => n.json.pretty ++ "\n"

/-- The text that is written for a source. -/
def convert (c : Config) (a : Arguments) (source : String) : Except Error String := do
  let tree ← decode c.renderOptions (a.input.getD .markdown) source
  (write c.renderOptions (a.format.getD .markup) tree).mapError .render

def Outcome.ofResult : Except Error String → Outcome
  | .ok output => ⟨0, output, ""⟩
  | .error e => ⟨1, "", "Error: " ++ e.message ++ "\n"⟩

variable {m : Type → Type} [Monad m]

def readSource (host : Host m) (a : Arguments) : m (Except ReadFailure String) :=
  let path := a.file.getD inputPath
  if path = inputPath then host.input else host.read path

/-- The result of `render` with some arguments. -/
def renderSource (host : Host m) (a : Arguments) : m (Except Error String) := do
  match ← Config.load host a.config (a.overrides (← host.lookup keyPrefixVariable)) with
  | .error e => return .error (.config e)
  | .ok c =>
      match ← readSource host a with
      | .error failure => return .error (.unreadable failure)
      | .ok source => return convert c a source

/-- A run of the program. -/
def run (host : Host m) (arguments : List String) : m Outcome := do
  match Arguments.ofCommandLine arguments with
  | .error halt => return halt.outcome
  | .ok a => return .ofResult (← renderSource host a)

end KeyedMarkup.Command
