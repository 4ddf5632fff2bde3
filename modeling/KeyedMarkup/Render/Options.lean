import KeyedMarkup.Hypertext.Convert
import KeyedMarkup.Hypertext.Sanitize
import KeyedMarkup.Render.Component

/-!
# Render options

All settings of a rendering, and the preparation of a document, which converts it to hypertext
and then sanitizes it as chosen.
-/

namespace KeyedMarkup.Render

/-- Whether and by which schema hypertext is sanitized. -/
inductive Sanitizing where
  | disabled
  | enabled
  | schema (s : Hypertext.Schema)
deriving DecidableEq, Inhabited

namespace Sanitizing

def ofBool (on : Bool) : Sanitizing := if on then .enabled else .disabled

def isEnabled : Sanitizing → Bool
  | .disabled => false
  | .enabled | .schema _ => true

def schema? : Sanitizing → Option Hypertext.Schema
  | .disabled => none
  | .enabled => some .github
  | .schema s => some s

end Sanitizing

/-- The hypertext of a document, sanitized as chosen. -/
def prepare (tree : Doc.Node) (sanitizing : Sanitizing) (convert : Hypertext.ConvertOptions) :
    Hypertext.Node :=
  let hypertext := Hypertext.ofDoc convert tree
  match sanitizing.schema? with
  | some s => hypertext.sanitize s
  | none => hypertext

structure Options where
  factory : Keyed.Factory := .plain
  components : Registry Component := .empty
  sanitizing : Sanitizing := .enabled
  convert : Hypertext.ConvertOptions := {}
  gfm : Bool := true
  keyPrefix : String := "h"
  maxDepth : Nat := 512
deriving Inhabited

end KeyedMarkup.Render
