import KeyedMarkup.Config.Reference
import KeyedMarkup.Render.Options

/-!
# Configurations

The settings of a rendering that a file or a command line can give, what they may be, and the
render options that follow from them. A key prefix in a file may refer to variables; this is
resolved before the command line has its say.
-/

namespace KeyedMarkup

/-- Tags and attributes that are allowed beside those of GitHub's schema. -/
structure Additions where
  tags : List String := []
  attributes : Dict (List String) := .empty
deriving DecidableEq, Inhabited

namespace Additions

def isEmpty (a : Additions) : Bool :=
  a.tags.isEmpty && a.attributes.entries.all fun e => e.2.isEmpty

/-- GitHub's schema with the additions. -/
def schema (a : Additions) : Hypertext.Schema :=
  a.attributes.entries.foldl
    (fun s e => e.2.foldl (fun s name => s.allowAttribute e.1 name) s)
    (a.tags.foldl Hypertext.Schema.allowTag .github)

end Additions

/-- The path is that of the file that the settings come from. -/
structure Config where
  gfm : Bool := true
  sanitize : Bool := true
  keyPrefix : String := "h"
  maxDepth : Nat := 512
  allowDangerousHtml : Bool := false
  additions : Additions := {}
  path : Option String := none
deriving DecidableEq, Inhabited

/-- What a setting may not be. -/
inductive Fault where
  | empty (setting : String)
  | zero (setting : String)
deriving DecidableEq

def Fault.message : Fault → String
  | .empty setting => setting ++ " cannot be empty"
  | .zero setting => setting ++ " must be greater than 0"

/-- Settings that win over those of a file. -/
structure Overrides where
  sanitize : Option Bool := none
  allowDangerousHtml : Option Bool := none
  keyPrefix : Option String := none
  gfm : Option Bool := none
deriving DecidableEq, Inhabited

namespace Config

inductive Error where
  | notFound (path : String)
  | unreadable (failure : ReadFailure)
  | malformed
  | invalid (fault : Fault)
  | unset (setting name : String)
deriving DecidableEq

def Error.message : Error → String
  | .notFound path => "Configuration file not found: " ++ path
  | .unreadable failure => "I/O error: " ++ failure.message
  | .malformed => "TOML parse error: no configuration in this text"
  | .invalid fault => "Configuration error: " ++ fault.message
  | .unset setting name =>
      "Environment variable error in " ++ setting ++ ": $\x7b" ++ name ++ "\x7d not set"

def keyPrefixName : String := "render.key_prefix"

def maxDepthName : String := "render.max_depth"

def allowTagsName : String := "sanitize.allow_tags"

def allowAttributesName : String := "sanitize.allow_attributes"

private def faultOfText (setting value : String) : List Fault :=
  if value = "" then [.empty setting] else []

/-- All that is wrong with a configuration, in the order of the settings. -/
def faults (c : Config) : List Fault :=
  faultOfText keyPrefixName c.keyPrefix ++
    (if c.maxDepth = 0 then [.zero maxDepthName] else []) ++
    c.additions.tags.flatMap (faultOfText allowTagsName) ++
    c.additions.attributes.entries.flatMap fun e =>
      faultOfText allowAttributesName e.1 ++
        e.2.flatMap (faultOfText (allowAttributesName ++ "." ++ e.1))

/-- The configuration, unless something is wrong with it. -/
def validated (c : Config) : Except Error Config :=
  match c.faults with
  | [] => .ok c
  | fault :: _ => .error (.invalid fault)

/-- The configuration with what its key prefix stands for. -/
def expanded (environment : Environment) (c : Config) : Except Error Config :=
  match Reference.expand environment c.keyPrefix with
  | .ok text => .ok { c with keyPrefix := text }
  | .error name => .error (.unset keyPrefixName name)

def overridden (o : Overrides) (c : Config) : Config :=
  { c with
    sanitize := o.sanitize.getD c.sanitize
    allowDangerousHtml := o.allowDangerousHtml.getD c.allowDangerousHtml
    keyPrefix := o.keyPrefix.getD c.keyPrefix
    gfm := o.gfm.getD c.gfm }

/-- The settings of a file, after its references and the overriding ones. -/
def settled (environment : Environment) (o : Overrides) (c : Config) : Except Error Config := do
  let c ← c.expanded environment
  (c.overridden o).validated

/-- Without additions GitHub's schema is taken as it stands. -/
def sanitizing (c : Config) : Render.Sanitizing :=
  if !c.sanitize then .disabled
  else if c.additions.isEmpty then .enabled
  else .schema c.additions.schema

/-- The render options of a configuration. -/
def renderOptions (c : Config) : Render.Options where
  sanitizing := c.sanitizing
  convert := ⟨c.allowDangerousHtml⟩
  gfm := c.gfm
  keyPrefix := c.keyPrefix
  maxDepth := c.maxDepth

end Config

end KeyedMarkup
