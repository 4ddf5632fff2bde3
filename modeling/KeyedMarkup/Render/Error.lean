/-!
# Render errors

Rendering fails if the tree is deeper than allowed or if a component fails; a failing component
says why in its own words.
-/

namespace KeyedMarkup.Render

inductive Error where
  | depthExceeded (limit : Nat)
  | component (target key cause : String)
deriving DecidableEq

/-- The text of an error, without the cause that a component gives. -/
def Error.message : Error → String
  | .depthExceeded limit => "tree exceeds maximum depth of " ++ toString limit
  | .component target key _ => "component for " ++ target ++ " failed at " ++ key

end KeyedMarkup.Render
