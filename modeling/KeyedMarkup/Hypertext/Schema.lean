import KeyedMarkup.Dict

/-!
# Sanitization schemas

A schema lists the tags and attributes that may stay, the protocols that an absolute address may
have, the tags that go with all their content, and the attributes whose values get a prefix. The
default is the one that GitHub applies to documents; it does not allow `class`.
-/

namespace KeyedMarkup.Hypertext

structure Schema where
  tags : Names
  attributes : Dict Names
  protocols : Dict Names
  strip : Names
  clobber : Names
  clobberPrefix : String
deriving DecidableEq, Inhabited

namespace Schema

/-- The entry of `attributes` that applies to every tag. -/
def anyTag : String := "*"

private def githubTags : List String :=
  ["h1", "h2", "h3", "h4", "h5", "h6", "br", "b", "i", "strong", "em", "a", "pre", "code", "img",
    "tt", "div", "ins", "del", "sup", "sub", "p", "ol", "ul", "table", "thead", "tbody", "tfoot",
    "blockquote", "dl", "dt", "dd", "kbd", "q", "samp", "var", "hr", "ruby", "rt", "rp", "li",
    "tr", "td", "th", "s", "strike", "summary", "details", "caption", "figure", "figcaption",
    "abbr", "bdo", "cite", "dfn", "mark", "small", "span", "time", "wbr", "input"]

private def githubGlobalAttributes : List String :=
  ["abbr", "accept", "accept-charset", "accesskey", "action", "align", "alt", "axis", "border",
    "cellpadding", "cellspacing", "char", "charoff", "charset", "checked", "clear", "cols",
    "colspan", "color", "compact", "coords", "datetime", "dir", "disabled", "enctype", "for",
    "frame", "headers", "height", "hreflang", "hspace", "id", "ismap", "label", "lang",
    "maxlength", "media", "method", "multiple", "name", "nohref", "noshade", "nowrap", "open",
    "prompt", "readonly", "rel", "rev", "rows", "rowspan", "rules", "scope", "selected", "shape",
    "size", "span", "start", "summary", "tabindex", "target", "title", "type", "usemap",
    "valign", "value", "vspace", "width", "itemprop"]

private def githubAttributes : List (String × List String) :=
  [(anyTag, githubGlobalAttributes), ("a", ["href"]), ("img", ["src", "longdesc"]),
    ("input", ["type", "checked", "disabled"]), ("div", ["itemscope", "itemtype"]),
    ("blockquote", ["cite"]), ("del", ["cite"]), ("ins", ["cite"]), ("q", ["cite"])]

private def githubProtocols : List (String × List String) :=
  [("href", ["http", "https", "mailto"]), ("cite", ["http", "https"]), ("src", ["http", "https"]),
    ("longdesc", ["http", "https"])]

private def namesByKey (es : List (String × List String)) : Dict Names :=
  .ofList (es.map fun e => (e.1, Names.ofList e.2))

/-- The schema that GitHub applies to documents. -/
def github : Schema where
  tags := .ofList githubTags
  attributes := namesByKey githubAttributes
  protocols := namesByKey githubProtocols
  strip := .ofList ["script", "style"]
  clobber := .ofList ["id", "name"]
  clobberPrefix := "user-content-"

/-- Also allows an attribute on a tag, or on every tag. -/
def allowAttribute (s : Schema) (tag name : String) : Schema :=
  let names := (s.attributes.get? tag).getD .empty
  { s with attributes := s.attributes.insert tag (names.insert name) }

/-- Also allows a tag. -/
def allowTag (s : Schema) (tag : String) : Schema := { s with tags := s.tags.insert tag }

def allowsAttribute (s : Schema) (tag name : String) : Bool :=
  [tag, anyTag].any fun key =>
    match s.attributes.get? key with
    | some names => names.contains name
    | none => false

/-- What stands before the first colon of an address, unless a `/`, `?` or `#` comes first. -/
def protocol? (url : String) : Option String :=
  let head := url.toList.takeWhile fun c => c != ':' && c != '/' && c != '?' && c != '#'
  match url.toList.drop head.length with
  | ':' :: _ => some (String.ofList head)
  | _ => none

/-- An address passes if its attribute has no list of protocols, if it is relative, or if its
protocol is listed, read in lower case. -/
def allowsUrl (s : Schema) (name url : String) : Bool :=
  match s.protocols.get? name, protocol? url with
  | some allowed, some protocol => allowed.contains (protocol.map Char.toLower)
  | _, _ => true

/-- The value with the prefix, which is not written twice. -/
def clobbered (s : Schema) (value : String) : String :=
  if s.clobberPrefix.toList.isPrefixOf value.toList then value else s.clobberPrefix ++ value

end Schema

end KeyedMarkup.Hypertext
