import CssColor.Channel
import CssColor.Conversion
import CssColor.Error
import CssColor.Hsl
import CssColor.Json
import CssColor.Keyword.Basic
import CssColor.Keyword.Table
import CssColor.Notation
import CssColor.Number.Basic
import CssColor.Number.Binary64
import CssColor.Number.Decimal
import CssColor.Number.Hexadecimal
import CssColor.Number.Integer
import CssColor.Number.Numeral
import CssColor.Number.Significant
import CssColor.Opacity
import CssColor.Recognition.Basic
import CssColor.Recognition.Call
import CssColor.Recognition.HexLiteral
import CssColor.Recognition.Recognizer
import CssColor.Rendering
import CssColor.Scan
import CssColor.Service
import CssColor.Session
import CssColor.Settings
import CssColor.SyntaxTree.Basic
import CssColor.SyntaxTree.Decode
import CssColor.Text.Blank
import CssColor.Text.Case
import CssColor.Text.CaseTable
import CssColor.Text.Digit
import CssColor.Text.Raw
import CssColor.Text.Slice
import CssColor.Token
import CssColor.Validation.Checked
import CssColor.Validation.Decode
import CssColor.Validation.Issue
import CssColor.Proofs.Outcome
import CssColor.Proofs.SyntaxTree.Preorder
import CssColor.Proofs.Token
import CssColor.Proofs.Scan.Walk
import CssColor.Proofs.Scan.Translation
import CssColor.Proofs.Number.NearestRank
import CssColor.Proofs.Number.Value
import CssColor.Proofs.Number.Midpoint
import CssColor.Proofs.Number.Spacing
import CssColor.Proofs.Number.Arithmetic
import CssColor.Proofs.Number.Reading
import CssColor.Proofs.Number.Overflow
import CssColor.Proofs.Number.Grouping
import CssColor.Proofs.Channel
import CssColor.Proofs.Channel.Codec
import CssColor.Proofs.Hsl
import CssColor.Proofs.Keyword
import CssColor.Proofs.Recognition.Grammar
import CssColor.Proofs.Recognition.Layout
import CssColor.Proofs.Recognition.WellFormed
import CssColor.Proofs.Recognition.Disjointness
import CssColor.Proofs.Recognition.Raw
import CssColor.Proofs.Recognition.Acceptance
import CssColor.Proofs.Rendering
import CssColor.Proofs.Rendering.Raw
import CssColor.Proofs.Number.Significant
import CssColor.Proofs.Opacity
import CssColor.Proofs.Conversion
import CssColor.Proofs.Recognition.Forms
import CssColor.Proofs.Scan.Failure
import CssColor.Proofs.Recoloring
import CssColor.Proofs.Scan.Origin
import CssColor.Proofs.Service.Sending
import CssColor.Proofs.Service.Handoff
import CssColor.Proofs.Scan.Coverage
import CssColor.Proofs.Conversion.Chain
import CssColor.Proofs.Service.Status
import CssColor.Proofs.Recognition.CallGrammar
import CssColor.Proofs.Scan.Narrowing
import CssColor.Proofs.Scan.Order
import CssColor.Proofs.Conversion.KeywordForm
import CssColor.Proofs.Hsl.Exact
import CssColor.Proofs.Number.Nearness
import CssColor.Proofs.Hsl.Channels
import CssColor.Proofs.Hsl.Parts
import CssColor.Proofs.Rendering.Drift
import CssColor.Proofs.SyntaxTree.Pruning
import CssColor.Proofs.Scan.Ranges
import CssColor.Proofs.Keyword.Index
import CssColor.Proofs.Text.Case
import CssColor.Proofs.Recognition.LetterCase
import CssColor.Proofs.Conversion.Respelling
import CssColor.Proofs.Number.Literal
import CssColor.Proofs.Channel.Totality
import CssColor.Proofs.Settings
import CssColor.Proofs.Number.HalfUp
