import DocComments.Comment.Basic
import DocComments.Comment.Delimiters
import DocComments.Comment.Extractor
import DocComments.Comment.Scan
import DocComments.Comment.Shape
import DocComments.Config
import DocComments.Dictionary
import DocComments.Document
import DocComments.Documenter
import DocComments.Json.Basic
import DocComments.Json.Reader
import DocComments.Json.StringBody
import DocComments.Json.Token
import DocComments.Json.Writer
import DocComments.Number.Basic
import DocComments.Number.Decimal
import DocComments.Number.Layout
import DocComments.Number.Shortest
import DocComments.Proofs.Comment.Append
import DocComments.Proofs.Comment.Blocks
import DocComments.Proofs.Comment.Coverage
import DocComments.Proofs.Comment.Decoding
import DocComments.Proofs.Comment.DelimiterLines
import DocComments.Proofs.Comment.Delimiters
import DocComments.Proofs.Comment.EmptyBlocks
import DocComments.Proofs.Comment.Extraction
import DocComments.Proofs.Comment.LineEndings
import DocComments.Proofs.Comment.Opening
import DocComments.Proofs.Comment.Posters
import DocComments.Proofs.Comment.Reading
import DocComments.Proofs.Comment.Renaming
import DocComments.Proofs.Comment.Rendering
import DocComments.Proofs.Comment.Resuming
import DocComments.Proofs.Comment.Rewriting
import DocComments.Proofs.Comment.Runs
import DocComments.Proofs.Comment.Spans
import DocComments.Proofs.Json.MemberNames
import DocComments.Proofs.Json.Numerals
import DocComments.Proofs.Json.Report
import DocComments.Proofs.Json.RoundTrip
import DocComments.Proofs.Json.Tokens
import DocComments.Proofs.Table
import DocComments.Proofs.Tag.Aliases
import DocComments.Proofs.Tag.AutofillChoice
import DocComments.Proofs.Tag.Completion
import DocComments.Proofs.Tag.Descriptions
import DocComments.Proofs.Tag.FieldNames
import DocComments.Proofs.Tag.Grouping
import DocComments.Proofs.Tag.Independence
import DocComments.Proofs.Tag.Inheritance
import DocComments.Proofs.Tag.Line
import DocComments.Proofs.Tag.OrderedValues
import DocComments.Proofs.Tag.OwnEntry
import DocComments.Proofs.Tag.Precedence
import DocComments.Proofs.Tag.Reader
import DocComments.Proofs.Tag.Values
import DocComments.Proofs.Tag.Warnings
import DocComments.Proofs.Text.Dedent
import DocComments.Proofs.Text.Indent
import DocComments.Proofs.Text.LineEndings
import DocComments.Proofs.Text.LineNumbers
import DocComments.Proofs.Text.Lines
import DocComments.Proofs.Text.Renaming
import DocComments.Proofs.Text.Search
import DocComments.Report
import DocComments.Table
import DocComments.Tag.Autofill
import DocComments.Tag.Completion
import DocComments.Tag.Entry
import DocComments.Tag.Event
import DocComments.Tag.Line
import DocComments.Tag.OwnEntry
import DocComments.Tag.Reader
import DocComments.Tag.Registry
import DocComments.Tag.Rule
import DocComments.Tag.Warning
import DocComments.Text.Basic
import DocComments.Text.DefaultIgnorable
import DocComments.Text.Digits
import DocComments.Text.GraphemeExtend
import DocComments.Text.Indent
import DocComments.Text.LineMap
import DocComments.Text.Lines
import DocComments.Text.Quoted
import DocComments.Text.Ranges
import DocComments.Text.Unprintable
import DocComments.Text.WhiteSpace
import DocComments.Value
import DocComments.Yaml.PlainText
import DocComments.Yaml.Scalar
import DocComments.Yaml.Style
import DocComments.Yaml.Writer
