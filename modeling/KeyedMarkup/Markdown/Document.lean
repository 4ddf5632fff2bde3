import KeyedMarkup.Doc.Builder
import KeyedMarkup.Markdown.Parser

/-!
# Documents from Markdown

The tree of a Markdown text is the tree of the events that its blocks stand for.
-/

namespace KeyedMarkup

/-- The document of a Markdown text. -/
def Doc.Node.ofMarkdown (gfm : Bool) (text : String) : Doc.Node :=
  .ofEvents (Markdown.events gfm text)

end KeyedMarkup
