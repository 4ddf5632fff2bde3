/-!
# Arguments of the command line

The command `render` takes a file, options with a value and switches, each at most once. A value
may be the next argument or part of the option's own; short options may share an argument, of which
the last may take a value. After `--` every argument is a file.
-/

namespace KeyedMarkup.Command

/-- What is written: markup, the keyed tree or the hypertext tree. -/
inductive Format where
  | markup
  | keyed
  | hypertext
deriving DecidableEq, Inhabited

def Format.ofName? : String → Option Format
  | "html" => some .markup
  | "json" => some .keyed
  | "hast" => some .hypertext
  | _ => none

/-- What is read. -/
inductive Input where
  | markdown
  | json
deriving DecidableEq, Inhabited

def Input.ofName? : String → Option Input
  | "markdown" => some .markdown
  | "json" => some .json
  | _ => none

structure Arguments where
  file : Option String := none
  format : Option Format := none
  input : Option Input := none
  config : Option String := none
  keyPrefix : Option String := none
  noSanitize : Bool := false
  allowDangerousHtml : Bool := false
  noGfm : Bool := false
  verbose : Bool := false
deriving DecidableEq, Inhabited

/-- Why a command line does not lead to a rendering. -/
inductive Halt where
  | misuse
  | help
  | version
deriving DecidableEq, Inhabited

inductive Setting where
  | format
  | input
  | config
  | keyPrefix
deriving DecidableEq

inductive Switch where
  | noSanitize
  | allowDangerousHtml
  | noGfm
  | verbose
  | help
deriving DecidableEq

/-- What a name on the command line stands for. -/
inductive Named where
  | setting (s : Setting)
  | switch (s : Switch)
deriving DecidableEq

def Named.ofLong? : String → Option Named
  | "format" => some (.setting .format)
  | "input" => some (.setting .input)
  | "config" => some (.setting .config)
  | "key-prefix" => some (.setting .keyPrefix)
  | "no-sanitize" => some (.switch .noSanitize)
  | "allow-dangerous-html" => some (.switch .allowDangerousHtml)
  | "no-gfm" => some (.switch .noGfm)
  | "verbose" => some (.switch .verbose)
  | "help" => some (.switch .help)
  | _ => none

def Named.ofShort? : Char → Option Named
  | 'f' => some (.setting .format)
  | 'c' => some (.setting .config)
  | 'v' => some (.switch .verbose)
  | 'h' => some (.switch .help)
  | _ => none

namespace Arguments

/-- A value where there is none yet. -/
def once {α : Type} (old new : Option α) : Except Halt (Option α) :=
  match old, new with
  | none, some v => .ok (some v)
  | _, _ => .error .misuse

/-- A path has at least one character. -/
def path? (s : String) : Option String := if s = "" then none else some s

def addFile (a : Arguments) (path : String) : Except Halt Arguments :=
  (once a.file (path? path)).map fun file => { a with file := file }

def assign (a : Arguments) (value : String) : Setting → Except Halt Arguments
  | .format => (once a.format (Format.ofName? value)).map fun v => { a with format := v }
  | .input => (once a.input (Input.ofName? value)).map fun v => { a with input := v }
  | .config => (once a.config (path? value)).map fun v => { a with config := v }
  | .keyPrefix => (once a.keyPrefix (some value)).map fun v => { a with keyPrefix := v }

private def turnOn (old : Bool) (a : Arguments) : Except Halt Arguments :=
  if old then .error .misuse else .ok a

def turn (a : Arguments) : Switch → Except Halt Arguments
  | .noSanitize => turnOn a.noSanitize { a with noSanitize := true }
  | .allowDangerousHtml => turnOn a.allowDangerousHtml { a with allowDangerousHtml := true }
  | .noGfm => turnOn a.noGfm { a with noGfm := true }
  | .verbose => turnOn a.verbose { a with verbose := true }
  | .help => .error .help

end Arguments

/-- The arguments so far, the option whose value is `due`, and whether all that follow are
files. -/
structure Reading where
  arguments : Arguments
  due : Option Setting
  filesOnly : Bool

namespace Reading

def start : Reading := ⟨{}, none, false⟩

/-- An option of which only the value may be missing. -/
def give (r : Reading) (s : Setting) (value : Option String) : Except Halt Reading :=
  match value with
  | none => .ok { r with due := some s }
  | some value => (r.arguments.assign value s).map fun a => { r with arguments := a, due := none }

def turn (r : Reading) (s : Switch) : Except Halt Reading :=
  (r.arguments.turn s).map fun a => { r with arguments := a }

/-- The characters after the single dash of an argument. -/
def readShort (r : Reading) : List Char → Except Halt Reading
  | [] => .ok r
  | c :: rest =>
      match Named.ofShort? c with
      | none => .error .misuse
      | some (.switch s) => do (← r.turn s).readShort rest
      | some (.setting s) =>
          r.give s <|
            match rest with
            | [] => none
            | '=' :: value => some (String.ofList value)
            | value => some (String.ofList value)

/-- The characters after the two dashes of an argument. -/
def readLong (r : Reading) (cs : List Char) : Except Halt Reading :=
  let name := cs.takeWhile (· != '=')
  let value := match cs.drop name.length with
    | [] => none
    | _ :: value => some (String.ofList value)
  match Named.ofLong? (String.ofList name), value with
  | some (.setting s), value => r.give s value
  | some (.switch s), none => r.turn s
  | _, _ => .error .misuse

/-- An argument that names no option. -/
def readPlain (r : Reading) (argument : String) : Except Halt Reading :=
  match r.due with
  | some s => r.give s (some argument)
  | none => (r.arguments.addFile argument).map fun a => { r with arguments := a }

/-- Takes the next argument. No name may stand where a value is due. -/
def step (r : Reading) (argument : String) : Except Halt Reading :=
  if r.filesOnly then r.readPlain argument
  else
    match argument.toList, r.due with
    | '-' :: _ :: _, some _ => .error .misuse
    | ['-', '-'], none => .ok { r with filesOnly := true }
    | '-' :: '-' :: rest, none => r.readLong rest
    | '-' :: c :: rest, none => r.readShort (c :: rest)
    | _, _ => r.readPlain argument

/-- The arguments, unless a value is still due. -/
def finish (r : Reading) : Except Halt Arguments :=
  if r.due.isSome then .error .misuse else .ok r.arguments

end Reading

/-- The arguments of `render`. -/
def Arguments.ofList (arguments : List String) : Except Halt Arguments :=
  arguments.foldlM Reading.step Reading.start >>= Reading.finish

/-- Help on the program, on `render` or on help itself. -/
def helpOn : List String → Halt
  | [] | ["render"] | ["help"] => .help
  | _ => .misuse

/-- The arguments of `render` on a whole command line. -/
def Arguments.ofCommandLine : List String → Except Halt Arguments
  | "render" :: rest => Arguments.ofList rest
  | "help" :: rest => .error (helpOn rest)
  | "--help" :: _ => .error .help
  | "--version" :: _ => .error .version
  | first :: _ =>
      .error <|
        match first.toList with
        | '-' :: 'h' :: _ => .help
        | '-' :: 'V' :: _ => .version
        | _ => .misuse
  | [] => .error .misuse

end KeyedMarkup.Command
