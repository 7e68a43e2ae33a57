import Roster.Filter.Writer
import Roster.Json.Leaves
import Roster.Main
import Roster.Proofs.Column.Names
import Roster.Proofs.Column.Resolution
import Roster.Proofs.Column.Selection
import Roster.Proofs.Command.Options
import Roster.Proofs.Files.Entries
import Roster.Proofs.Files.Loading
import Roster.Proofs.Files.Paths
import Roster.Proofs.Files.Patterns
import Roster.Proofs.Files.Selection
import Roster.Proofs.Filter.BareClauses
import Roster.Proofs.Filter.Equality
import Roster.Proofs.Filter.IdLiterals
import Roster.Proofs.Filter.Matching
import Roster.Proofs.Filter.Operators
import Roster.Proofs.Filter.Range
import Roster.Proofs.Filter.Reading
import Roster.Proofs.Filter.RoundTrip
import Roster.Proofs.Json.Decoding
import Roster.Proofs.Json.Leaves
import Roster.Proofs.Json.Literals
import Roster.Proofs.Json.Lookup
import Roster.Proofs.Json.Nesting
import Roster.Proofs.Json.Pruning
import Roster.Proofs.Json.Reading
import Roster.Proofs.Json.Same
import Roster.Proofs.Number.Digits
import Roster.Proofs.Number.Literal
import Roster.Proofs.Number.Rounding
import Roster.Proofs.Number.Shortest
import Roster.Proofs.Output.Csv
import Roster.Proofs.Query.Columns
import Roster.Proofs.Query.Conjunction
import Roster.Proofs.Query.DataFile
import Roster.Proofs.Query.LoadOrder
import Roster.Proofs.Query.Lookup
import Roster.Proofs.Query.PageWindow
import Roster.Proofs.Query.Paging
import Roster.Proofs.Query.Search
import Roster.Proofs.Query.Selection
import Roster.Proofs.Query.Sorting
import Roster.Proofs.Query.Surfaces
import Roster.Proofs.Record.Json
import Roster.Proofs.Record.Rules
import Roster.Proofs.Row.Chosen
import Roster.Proofs.Row.ChosenLeaves
import Roster.Proofs.Row.Nest
import Roster.Proofs.Row.Whole
import Roster.Proofs.Scalar.Comparison
import Roster.Proofs.Scalar.Display
import Roster.Proofs.Scalar.IntegerLiteral
import Roster.Proofs.Scalar.Kinds
import Roster.Proofs.Scalar.Order
import Roster.Proofs.Statistics.Ascending
import Roster.Proofs.Statistics.Breakdown
import Roster.Proofs.Statistics.EmptyTexts
import Roster.Proofs.Statistics.MostCommon
import Roster.Proofs.Statistics.RecordOrder
import Roster.Proofs.Statistics.Tally
import Roster.Proofs.Statistics.Views
import Roster.Proofs.Store.Index
import Roster.Proofs.Text.ByteOrder
import Roster.Proofs.Text.Cutting
import Roster.Proofs.Text.FirstSeen
import Roster.Proofs.Text.Lowercase
import Roster.Proofs.Time.Patterns
import Roster.Proofs.Time.Reading
import Roster.Proofs.Time.Shape
import Roster.Proofs.Time.Spellings
import Roster.Proofs.Time.Writing
import Roster.Proofs.Web.Parameters
import Roster.Proofs.Web.Retrieval
import Roster.Record.Sample
import Roster.Web.Handler
import Roster.Proofs.Json.Insertion
import Roster.Proofs.Output.Table
import Roster.Proofs.Row.Renesting
import Roster.Proofs.Text.BytePlaces
import Roster.Proofs.Time.Bounds
