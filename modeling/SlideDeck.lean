import SlideDeck.Binary64.Basic
import SlideDeck.Binary64.Rounding
import SlideDeck.Binary64.Written
import SlideDeck.Box.Arrange
import SlideDeck.Box.Basic
import SlideDeck.Box.Engine
import SlideDeck.Box.Extent
import SlideDeck.Box.Print
import SlideDeck.Cascade.Basic
import SlideDeck.Cascade.Resolved
import SlideDeck.CommandLine
import SlideDeck.CompileError
import SlideDeck.Deck.Basic
import SlideDeck.Deck.Cache
import SlideDeck.Deck.Interleaved
import SlideDeck.Deck.Session
import SlideDeck.Diagnostics.Broadcast
import SlideDeck.Diagnostics.Emitter
import SlideDeck.Diagnostics.Event
import SlideDeck.Position
import SlideDeck.Proofs.Binary64.ReadBack
import SlideDeck.Proofs.Binary64.Rounding
import SlideDeck.Proofs.Binary64.Shortest
import SlideDeck.Proofs.Binary64.Written
import SlideDeck.Proofs.Cascade.Precedence
import SlideDeck.Proofs.Cascade.Viewport
import SlideDeck.Proofs.Deck.Compile
import SlideDeck.Proofs.Deck.Concatenation
import SlideDeck.Proofs.Deck.Crew
import SlideDeck.Proofs.Deck.Failure
import SlideDeck.Proofs.Deck.Interleaved
import SlideDeck.Proofs.Deck.Overflows
import SlideDeck.Proofs.Deck.Positions
import SlideDeck.Proofs.Deck.Renderings
import SlideDeck.Proofs.Deck.Session
import SlideDeck.Proofs.Deck.Targets
import SlideDeck.Proofs.Deck.Totality
import SlideDeck.Proofs.Diagnostics.Bookkeeping
import SlideDeck.Proofs.Diagnostics.Echoes
import SlideDeck.Proofs.Diagnostics.Emitter
import SlideDeck.Proofs.Diagnostics.Overflows
import SlideDeck.Proofs.Equality.Equivalence
import SlideDeck.Proofs.Equality.Layout
import SlideDeck.Proofs.Equality.Resolved
import SlideDeck.Proofs.Layout.Absolute
import SlideDeck.Proofs.Layout.Alike
import SlideDeck.Proofs.Layout.Bounds
import SlideDeck.Proofs.Layout.Containment
import SlideDeck.Proofs.Layout.Growth
import SlideDeck.Proofs.Layout.Identity
import SlideDeck.Proofs.Layout.Independence
import SlideDeck.Proofs.Layout.Margin
import SlideDeck.Proofs.Layout.Notes
import SlideDeck.Proofs.Layout.Stack
import SlideDeck.Proofs.Layout.Tiling
import SlideDeck.Proofs.Layout.Transposed
import SlideDeck.Proofs.Layout.Visit
import SlideDeck.Proofs.Lexical.Gap
import SlideDeck.Proofs.Lexical.Grammar
import SlideDeck.Proofs.Lexical.Lexeme
import SlideDeck.Proofs.Lexical.Place
import SlideDeck.Proofs.Lexical.Tokenize
import SlideDeck.Proofs.Pool.Lifecycle
import SlideDeck.Proofs.Pool.Mapping
import SlideDeck.Proofs.Pool.Turns
import SlideDeck.Proofs.Property.Colour
import SlideDeck.Proofs.Relocation.Comments
import SlideDeck.Proofs.Relocation.Concatenation
import SlideDeck.Proofs.Relocation.Document
import SlideDeck.Proofs.Relocation.Reader
import SlideDeck.Proofs.Relocation.Render
import SlideDeck.Proofs.Relocation.Scan
import SlideDeck.Proofs.Relocation.Spacing
import SlideDeck.Proofs.RoundTrip.Content
import SlideDeck.Proofs.RoundTrip.Document
import SlideDeck.Proofs.RoundTrip.Equality
import SlideDeck.Proofs.RoundTrip.Numbers
import SlideDeck.Proofs.RoundTrip.Properties
import SlideDeck.Proofs.RoundTrip.Text
import SlideDeck.Proofs.Syntax.Content
import SlideDeck.Proofs.Syntax.Document
import SlideDeck.Proofs.Syntax.ElementParts
import SlideDeck.Proofs.Syntax.Grammar
import SlideDeck.Proofs.Syntax.Numbering
import SlideDeck.Proofs.Syntax.Properties
import SlideDeck.Proofs.Syntax.Reader
import SlideDeck.Proofs.Text.Bytes
import SlideDeck.Proofs.Text.Decimal
import SlideDeck.Property.Basic
import SlideDeck.Property.Colour
import SlideDeck.Property.Map
import SlideDeck.Slide.Basic
import SlideDeck.Slide.Element
import SlideDeck.Slide.Fault
import SlideDeck.Slide.Kind
import SlideDeck.Slide.Parse
import SlideDeck.Slide.Print
import SlideDeck.TaskPool
import SlideDeck.TaskPool.Mapping
import SlideDeck.TaskPool.Shift
import SlideDeck.Text.Bytes
import SlideDeck.Text.Decimal
import SlideDeck.Text.Hexadecimal
import SlideDeck.Text.Quoted
import SlideDeck.Token.Basic
import SlideDeck.Token.Scan
import SlideDeck.Main
import SlideDeck.Proofs.Layout.Places
import SlideDeck.Proofs.Box.Serialized
import SlideDeck.Proofs.Box.Tree
import SlideDeck.Proofs.CommandLine.Options
import SlideDeck.Proofs.CommandLine.Refusals
import SlideDeck.Proofs.Deck.Cache
import SlideDeck.Proofs.Diagnostics.Scopes
import SlideDeck.Proofs.RoundTrip.Quoted
