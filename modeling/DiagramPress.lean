import DiagramPress.Catalog.Distance
import DiagramPress.Catalog.Shapes
import DiagramPress.Catalog.Themes
import DiagramPress.Codec.Base64
import DiagramPress.Codec.Bits
import DiagramPress.Codec.Deflate
import DiagramPress.Codec.Huffman
import DiagramPress.Codec.Packing
import DiagramPress.Codec.Tokens
import DiagramPress.Compile
import DiagramPress.Console.Arguments
import DiagramPress.Console.Files
import DiagramPress.Console.Program
import DiagramPress.Data.Decoder
import DiagramPress.Data.Json.Number
import DiagramPress.Data.Json.Reader
import DiagramPress.Data.Json.Stop
import DiagramPress.Data.Json.Text
import DiagramPress.Data.Json.Tree
import DiagramPress.Data.Json5
import DiagramPress.Data.Value
import DiagramPress.Data.Writer
import DiagramPress.Description
import DiagramPress.Description.Check
import DiagramPress.Description.Outline
import DiagramPress.Description.Reader
import DiagramPress.Geometry
import DiagramPress.Image.Canvas
import DiagramPress.Image.Drawing
import DiagramPress.Image.Embedding
import DiagramPress.Image.Label
import DiagramPress.Layout.Acyclic
import DiagramPress.Layout.Adapter
import DiagramPress.Layout.Engine
import DiagramPress.Layout.Force
import DiagramPress.Layout.Frame
import DiagramPress.Layout.FrameReader
import DiagramPress.Layout.Layered
import DiagramPress.Layout.Layered.Columns
import DiagramPress.Layout.Layered.Layers
import DiagramPress.Layout.Layered.Ranks
import DiagramPress.Layout.Placement
import DiagramPress.Layout.Radial
import DiagramPress.Layout.Report
import DiagramPress.Layout.Rows
import DiagramPress.Layout.SpanningForest
import DiagramPress.Layout.Tree
import DiagramPress.Layout.Vocabulary
import DiagramPress.Main
import DiagramPress.Markup.Check
import DiagramPress.Markup.Document
import DiagramPress.Markup.Element
import DiagramPress.Markup.Escape
import DiagramPress.Markup.Reader
import DiagramPress.Model
import DiagramPress.Model.Build
import DiagramPress.Moment
import DiagramPress.Number.Decimal
import DiagramPress.Number.Rounding
import DiagramPress.Number.Scalar
import DiagramPress.Number.Single
import DiagramPress.OutputFormat
import DiagramPress.Proofs.Catalog.Edits
import DiagramPress.Proofs.Catalog.Suggestions
import DiagramPress.Proofs.Codec.Base64
import DiagramPress.Proofs.Codec.Bits
import DiagramPress.Proofs.Codec.Deflate
import DiagramPress.Proofs.Codec.Packing
import DiagramPress.Proofs.Codec.Tokens
import DiagramPress.Proofs.Compile
import DiagramPress.Proofs.Console.Generate
import DiagramPress.Proofs.Console.Outcome
import DiagramPress.Proofs.Console.Validate
import DiagramPress.Proofs.Description.Accepted
import DiagramPress.Proofs.Description.Circles
import DiagramPress.Proofs.Description.Depth
import DiagramPress.Proofs.Description.Measures
import DiagramPress.Proofs.Description.WellFormed
import DiagramPress.Proofs.Geometry.Chords
import DiagramPress.Proofs.Geometry.Covering
import DiagramPress.Proofs.Geometry.Exits
import DiagramPress.Proofs.Geometry.Spacing
import DiagramPress.Proofs.Image.Canvas
import DiagramPress.Proofs.Image.Embedding
import DiagramPress.Proofs.Image.Labels
import DiagramPress.Proofs.Image.PaintingOrder
import DiagramPress.Proofs.Image.SamePlaces
import DiagramPress.Proofs.Image.WellFormed
import DiagramPress.Proofs.Layout.Acyclic
import DiagramPress.Proofs.Layout.Answer
import DiagramPress.Proofs.Layout.Arranged
import DiagramPress.Proofs.Layout.Arrangement
import DiagramPress.Proofs.Layout.BreadthFirst
import DiagramPress.Proofs.Layout.Circles
import DiagramPress.Proofs.Layout.Clearance
import DiagramPress.Proofs.Layout.Complete
import DiagramPress.Proofs.Layout.Containment
import DiagramPress.Proofs.Layout.DeepestFirst
import DiagramPress.Proofs.Layout.Descent
import DiagramPress.Proofs.Layout.Distances
import DiagramPress.Proofs.Layout.Faults
import DiagramPress.Proofs.Layout.Flows
import DiagramPress.Proofs.Layout.ForceSpacing
import DiagramPress.Proofs.Layout.Growth
import DiagramPress.Proofs.Layout.Hanging
import DiagramPress.Proofs.Layout.Inside
import DiagramPress.Proofs.Layout.Kept
import DiagramPress.Proofs.Layout.Lifting
import DiagramPress.Proofs.Layout.Methods
import DiagramPress.Proofs.Layout.NoOverlap
import DiagramPress.Proofs.Layout.Packing
import DiagramPress.Proofs.Layout.Pinned
import DiagramPress.Proofs.Layout.Positions
import DiagramPress.Proofs.Layout.Renaming
import DiagramPress.Proofs.Layout.Request
import DiagramPress.Proofs.Layout.Restyling
import DiagramPress.Proofs.Layout.RingSpacing
import DiagramPress.Proofs.Layout.Rings
import DiagramPress.Proofs.Layout.Searches
import DiagramPress.Proofs.Layout.Separation
import DiagramPress.Proofs.Layout.Siblings
import DiagramPress.Proofs.Layout.Spacing
import DiagramPress.Proofs.Layout.SpanningForest
import DiagramPress.Proofs.Layout.Spreading
import DiagramPress.Proofs.Layout.TidyTrees
import DiagramPress.Proofs.Layout.TreeSpacing
import DiagramPress.Proofs.Layout.Vocabulary
import DiagramPress.Proofs.Layout.Ways
import DiagramPress.Proofs.Layout.WrittenBack
import DiagramPress.Proofs.Markup.CellText
import DiagramPress.Proofs.Markup.Cells
import DiagramPress.Proofs.Markup.Faults
import DiagramPress.Proofs.Markup.Foreign
import DiagramPress.Proofs.Markup.Grammar
import DiagramPress.Proofs.Markup.KnownIds
import DiagramPress.Proofs.Markup.Order
import DiagramPress.Proofs.Markup.ReadBack
import DiagramPress.Proofs.Markup.References
import DiagramPress.Proofs.Markup.Rules
import DiagramPress.Proofs.Markup.Scanning
import DiagramPress.Proofs.Markup.Spellings
import DiagramPress.Proofs.Markup.Sums
import DiagramPress.Proofs.Markup.Title
import DiagramPress.Proofs.Model.Forest
import DiagramPress.Proofs.Model.Identifiers
import DiagramPress.Proofs.Model.Nesting
import DiagramPress.Proofs.Model.Numbering
import DiagramPress.Proofs.Model.Renaming
import DiagramPress.Proofs.Model.Restyling
import DiagramPress.Proofs.Model.Unplaced
import DiagramPress.Proofs.Model.WellNumbered
import DiagramPress.Proofs.Number.Exact
import DiagramPress.Proofs.Number.Fractions
import DiagramPress.Proofs.Number.Grid
import DiagramPress.Proofs.Number.Real
import DiagramPress.Proofs.Number.Rounded
import DiagramPress.Proofs.Number.Written
import DiagramPress.Proofs.Renaming
import DiagramPress.Proofs.Style.LastWrite
import DiagramPress.Proofs.Style.Layers
import DiagramPress.Proofs.Style.Overrides
import DiagramPress.Proofs.Style.ReadBack
import DiagramPress.Proofs.Style.Wishes
import DiagramPress.Proofs.Text.Blanks
import DiagramPress.Proofs.Text.ByteOrder
import DiagramPress.Proofs.Text.Lines
import DiagramPress.Proofs.Text.Pieces
import DiagramPress.Proofs.Text.Words
import DiagramPress.Settings
import DiagramPress.Settings.Reader
import DiagramPress.Style
import DiagramPress.Text.Case
import DiagramPress.Text.Category
import DiagramPress.Text.Printable
import DiagramPress.Text.Quoted
import DiagramPress.Text.Surrogate
import DiagramPress.Text.Words
import DiagramPress.TextMap
