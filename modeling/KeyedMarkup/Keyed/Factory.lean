import KeyedMarkup.Keyed.Element

/-!
# Element factories

Every rendered element is made by a factory, which is given a tag, a key with attributes, and the
rendered children. The plain factory puts them together as they are; the others change one of
them and leave the rest to the plain one.
-/

namespace KeyedMarkup.Keyed

/-- The key and the attributes of an element to be made. -/
structure Props where
  key : Option String
  attributes : Properties
deriving DecidableEq, Inhabited

structure Factory where
  create : String → Props → List Node → Element

/-- One use of a factory: what it was given. -/
structure Creation where
  tag : String
  props : Props
  children : List Node
deriving Inhabited

namespace Factory

def plain : Factory := ⟨fun tag props children => ⟨tag, props.key, props.attributes, children⟩⟩

instance : Inhabited Factory := ⟨plain⟩

/-- Changes the tag by `onTag` and the key and attributes by `onProps`. -/
def adapted (onTag : String → String) (onProps : Props → Props) : Factory :=
  ⟨fun tag props children => plain.create (onTag tag) (onProps props) children⟩

/-- Writes tags in upper case. -/
def upperCase : Factory := adapted (·.map Char.toUpper) id

/-- Puts a text before every tag. -/
def tagged (front : String) : Factory := adapted (front ++ ·) id

/-- Leaves the keys out. -/
def keyless : Factory := adapted id fun props => { props with key := none }

/-- Also writes the key as the attribute `data-key`, empty if there is no key. -/
def keyAttribute : Factory := adapted id fun props =>
  { props with attributes := props.attributes.insert "data-key" (.text (props.key.getD "")) }

end Factory

end KeyedMarkup.Keyed
