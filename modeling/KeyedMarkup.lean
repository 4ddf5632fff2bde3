import KeyedMarkup.Command.Run
import KeyedMarkup.Doc.Builder
import KeyedMarkup.Host.Files
import KeyedMarkup.Main
import KeyedMarkup.Render.Recipe
import KeyedMarkup.Proofs.Hypertext.Address
import KeyedMarkup.Proofs.Keyed.Unambiguous
import KeyedMarkup.Proofs.Config.Safety
import KeyedMarkup.Proofs.Render.Keys
import KeyedMarkup.Proofs.Hypertext.Repetition
import KeyedMarkup.Proofs.Doc.Traversal
import KeyedMarkup.Proofs.Hypertext.Conversion
import KeyedMarkup.Proofs.Hypertext.Tokens
import KeyedMarkup.Proofs.Hypertext.Height
import KeyedMarkup.Proofs.Render.Depth
import KeyedMarkup.Proofs.Hypertext.Text
import KeyedMarkup.Proofs.Render.Text
import KeyedMarkup.Proofs.Hypertext.Kinds
import KeyedMarkup.Proofs.Render.Appending
import KeyedMarkup.Proofs.Doc.Accepted
import KeyedMarkup.Proofs.Doc.Nesting
import KeyedMarkup.Proofs.Doc.Built
import KeyedMarkup.Proofs.Render.Order
import KeyedMarkup.Proofs.Render.Calls
import KeyedMarkup.Proofs.Render.Factories
import KeyedMarkup.Proofs.Render.Switch
import KeyedMarkup.Proofs.Hypertext.Preservation
import KeyedMarkup.Proofs.Doc.Numbers
import KeyedMarkup.Proofs.Doc.Wording
import KeyedMarkup.Proofs.Doc.Description
import KeyedMarkup.Proofs.Hypertext.Tables
import KeyedMarkup.Proofs.Hypertext.CodeBlock
import KeyedMarkup.Proofs.Render.Moves
import KeyedMarkup.Proofs.Render.Registration
import KeyedMarkup.Proofs.Config.Union
import KeyedMarkup.Proofs.Hypertext.Clobbering
import KeyedMarkup.Proofs.Config.Precedence
import KeyedMarkup.Proofs.Doc.Worklist
import KeyedMarkup.Proofs.Number.Whole
import KeyedMarkup.Proofs.Hypertext.Headings
import KeyedMarkup.Proofs.Render.Lists
