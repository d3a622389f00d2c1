import FormLetter.Codec.Options
import FormLetter.Codec.Report
import FormLetter.Codec.Schema
import FormLetter.Codec.Span
import FormLetter.Codec.Value
import FormLetter.Expr.Display
import FormLetter.Functions
import FormLetter.Json.Reader
import FormLetter.Json.Writer
import FormLetter.Template.References
import FormLetter.Proofs.Decimal.Digits
import FormLetter.Proofs.Decimal.Patterns
import FormLetter.Proofs.Decimal.Rounding
import FormLetter.Proofs.Decimal.Scaled
import FormLetter.Proofs.Decimal.Shortest
import FormLetter.Proofs.Document.Alternatives
import FormLetter.Proofs.Document.Collecting
import FormLetter.Proofs.Document.Forest
import FormLetter.Proofs.Document.Fragments
import FormLetter.Proofs.Document.Names
import FormLetter.Proofs.Document.Numbering
import FormLetter.Proofs.Document.OpenRuns
import FormLetter.Proofs.Document.PartOrder
import FormLetter.Proofs.Document.Parts
import FormLetter.Proofs.Document.Reader
import FormLetter.Proofs.Document.Reading
import FormLetter.Proofs.Expr.Access
import FormLetter.Proofs.Expr.Calls
import FormLetter.Proofs.Expr.Completeness
import FormLetter.Proofs.Expr.Dotted
import FormLetter.Proofs.Expr.Faults
import FormLetter.Proofs.Expr.Grammar
import FormLetter.Proofs.Expr.Header
import FormLetter.Proofs.Expr.Lexemes
import FormLetter.Proofs.Expr.Numbers
import FormLetter.Proofs.Expr.ParseTree
import FormLetter.Proofs.Expr.Path
import FormLetter.Proofs.Expr.RoundTrip
import FormLetter.Proofs.Expr.Soundness
import FormLetter.Proofs.Expr.Spelling
import FormLetter.Proofs.Expr.Steps
import FormLetter.Proofs.Expr.Tiling
import FormLetter.Proofs.Expr.Unambiguous
import FormLetter.Proofs.Expr.Variables
import FormLetter.Proofs.Expr.Walk
import FormLetter.Proofs.Expr.Written
import FormLetter.Proofs.Markup.Agreement
import FormLetter.Proofs.Markup.Delimiters
import FormLetter.Proofs.Markup.Lines
import FormLetter.Proofs.Markup.Matching
import FormLetter.Proofs.Markup.Places
import FormLetter.Proofs.Markup.Seams
import FormLetter.Proofs.Markup.Tags
import FormLetter.Proofs.Markup.Tiling
import FormLetter.Proofs.Outcome
import FormLetter.Proofs.Render.Calls
import FormLetter.Proofs.Render.Completion
import FormLetter.Proofs.Render.Concatenation
import FormLetter.Proofs.Render.Depth
import FormLetter.Proofs.Render.History
import FormLetter.Proofs.Render.Markers
import FormLetter.Proofs.Render.Moments
import FormLetter.Proofs.Render.OpenFragments
import FormLetter.Proofs.Render.Rounds
import FormLetter.Proofs.Render.Steps
import FormLetter.Proofs.Schema.Conformity
import FormLetter.Proofs.Schema.Index
import FormLetter.Proofs.Schema.Lookup
import FormLetter.Proofs.Span.Anchors
import FormLetter.Proofs.Span.Placed
import FormLetter.Proofs.Span.Tiling
import FormLetter.Proofs.Template.Concatenation
import FormLetter.Proofs.Template.Grammar
import FormLetter.Proofs.Template.Nesting
import FormLetter.Proofs.Template.OpenBlocks
import FormLetter.Proofs.Template.Pieces
import FormLetter.Proofs.Template.Reading
import FormLetter.Proofs.Template.References
import FormLetter.Proofs.Template.Refusals
import FormLetter.Proofs.Template.Written
import FormLetter.Proofs.Text.Characters
import FormLetter.Proofs.Text.Edits
import FormLetter.Proofs.Validation.Acceptance
import FormLetter.Proofs.Validation.Bindings
import FormLetter.Proofs.Validation.Blocks
import FormLetter.Proofs.Validation.Calls
import FormLetter.Proofs.Validation.Declared
import FormLetter.Proofs.Validation.Enclosing
import FormLetter.Proofs.Validation.Findings
import FormLetter.Proofs.Validation.IdleText
import FormLetter.Proofs.Validation.InStep
import FormLetter.Proofs.Validation.Keys
import FormLetter.Proofs.Validation.Kinds
import FormLetter.Proofs.Validation.Limits
import FormLetter.Proofs.Validation.Listing
import FormLetter.Proofs.Validation.Mentions
import FormLetter.Proofs.Validation.Modes
import FormLetter.Proofs.Validation.Order
import FormLetter.Proofs.Validation.Paths
import FormLetter.Proofs.Validation.Recovery
import FormLetter.Proofs.Validation.Soundness
import FormLetter.Proofs.Validation.Substitution
import FormLetter.Proofs.Validation.Suggestions
import FormLetter.Proofs.Validation.Uses
import FormLetter.Proofs.Value.Arithmetic
import FormLetter.Proofs.Value.Comparison
