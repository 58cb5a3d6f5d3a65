import TemplateLayout.Alignment.Hunks
import TemplateLayout.Alignment.Runs
import TemplateLayout.Alignment.Suggestion
import TemplateLayout.Block
import TemplateLayout.Decimal.Binary64
import TemplateLayout.Decimal.Notation
import TemplateLayout.Decimal.Shortest
import TemplateLayout.Diagnostic.Basic
import TemplateLayout.Diagnostic.Code
import TemplateLayout.Diagnostic.Snippet
import TemplateLayout.Directive
import TemplateLayout.Document
import TemplateLayout.Event
import TemplateLayout.Fragment
import TemplateLayout.Header
import TemplateLayout.Interpolation
import TemplateLayout.Layout.Render
import TemplateLayout.Layout.Tag
import TemplateLayout.Layout.Walk
import TemplateLayout.Node
import TemplateLayout.Node.Loading
import TemplateLayout.Options
import TemplateLayout.Package
import TemplateLayout.Path
import TemplateLayout.Proofs.AttributeLists
import TemplateLayout.Proofs.Blank
import TemplateLayout.Proofs.Bodies
import TemplateLayout.Proofs.Colors
import TemplateLayout.Proofs.Content
import TemplateLayout.Proofs.Edits
import TemplateLayout.Proofs.Encoding
import TemplateLayout.Proofs.Failures
import TemplateLayout.Proofs.Faults
import TemplateLayout.Proofs.Forests
import TemplateLayout.Proofs.Gaps
import TemplateLayout.Proofs.HeaderFixpoints
import TemplateLayout.Proofs.HeaderLines
import TemplateLayout.Proofs.Headers
import TemplateLayout.Proofs.Idempotence
import TemplateLayout.Proofs.Indents
import TemplateLayout.Proofs.Keywords
import TemplateLayout.Proofs.Lines
import TemplateLayout.Proofs.Loading
import TemplateLayout.Proofs.Locations
import TemplateLayout.Proofs.Logged
import TemplateLayout.Proofs.LongestRuns
import TemplateLayout.Proofs.Opacity
import TemplateLayout.Proofs.Openings
import TemplateLayout.Proofs.Reading
import TemplateLayout.Proofs.Reports
import TemplateLayout.Proofs.Schema
import TemplateLayout.Proofs.Segmentation
import TemplateLayout.Proofs.Shapes
import TemplateLayout.Proofs.Snippets
import TemplateLayout.Proofs.Spacing
import TemplateLayout.Proofs.Spans
import TemplateLayout.Proofs.Stages
import TemplateLayout.Proofs.TextCuts
import TemplateLayout.Proofs.Tokens
import TemplateLayout.Proofs.Verbatim
import TemplateLayout.Proofs.Walks
import TemplateLayout.Proofs.Windows
import TemplateLayout.Proofs.WordRuns
import TemplateLayout.Report
import TemplateLayout.Terminal
import TemplateLayout.Text.Basic
import TemplateLayout.Text.Blank
import TemplateLayout.Text.CodePoint
import TemplateLayout.Text.Lines
import TemplateLayout.Text.Numeral
import TemplateLayout.Text.Printable
import TemplateLayout.Text.Quoted
import TemplateLayout.Text.Ranges
import TemplateLayout.Text.WordChar
import TemplateLayout.Value
import TemplateLayout.Value.Reader
