import KeyedMarkup.Config.Basic
import KeyedMarkup.Toml.Reader

/-!
# Configuration files

The settings of a TOML document. They stand in sections; a section or a setting that is missing
leaves the default, what is not known is passed over, and a setting of another type is refused.
-/

namespace KeyedMarkup.Config

/-- The settings of a section: by name in a table, in this order in a list, and none in a date or
time. -/
def settingsOf? (names : List String) : Toml.Value → Option Toml.Fields
  | .table _ fields => some fields
  | .list _ items => some (names.zip items)
  | .moment => some []
  | _ => none

def section? (root : Toml.Fields) (name : String) (settings : List String) :
    Option Toml.Fields :=
  match root.lookup name with
  | some v => settingsOf? settings v
  | none => some []

private def textOf? : Toml.Value → Option String
  | .text s => some s
  | _ => none

private def flagOf? : Toml.Value → Option Bool
  | .flag b => some b
  | _ => none

/-- A depth has 64 bits. -/
private def depthOf? : Toml.Value → Option Nat
  | .integer n => if 0 ≤ n && n < Int.pow 2 64 then some n.toNat else none
  | _ => none

private def textsOf? : Toml.Value → Option (List String)
  | .list _ items => items.mapM textOf?
  | _ => none

private def textsByNameOf? : Toml.Value → Option (Dict (List String))
  | .table _ fields => (fields.mapM fun e => (textsOf? e.2).map (e.1, ·)).map Dict.ofList
  | _ => none

/-- A setting of a section, or its default. -/
def settingOr? {α : Type} (fields : Toml.Fields) (name : String) (default : α)
    (read : Toml.Value → Option α) : Option α :=
  match fields.lookup name with
  | some v => read v
  | none => some default

/-- The configuration of a document. -/
def ofToml? (root : Toml.Fields) : Option Config := do
  let parse ← section? root "parse" ["gfm"]
  let render ← section? root "render" ["sanitize", "key_prefix", "max_depth"]
  let hypertext ← section? root "hypertext" ["allow_dangerous_html"]
  let sanitize ← section? root "sanitize" ["allow_tags", "allow_attributes"]
  let standard : Config := {}
  return {
    gfm := ← settingOr? parse "gfm" standard.gfm flagOf?
    sanitize := ← settingOr? render "sanitize" standard.sanitize flagOf?
    keyPrefix := ← settingOr? render "key_prefix" standard.keyPrefix textOf?
    maxDepth := ← settingOr? render "max_depth" standard.maxDepth depthOf?
    allowDangerousHtml :=
      ← settingOr? hypertext "allow_dangerous_html" standard.allowDangerousHtml flagOf?
    additions := {
      tags := ← settingOr? sanitize "allow_tags" standard.additions.tags textsOf?
      attributes :=
        ← settingOr? sanitize "allow_attributes" standard.additions.attributes textsByNameOf? } }

/-- The configuration that a text describes. -/
def ofText? (text : String) : Option Config := (Toml.fieldsOfText? text).bind ofToml?

end KeyedMarkup.Config
