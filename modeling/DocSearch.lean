import DocSearch.Client
import DocSearch.CommandLine.Arguments
import DocSearch.CommandLine.Filters
import DocSearch.CommandLine.Invocation
import DocSearch.CommandLine.Run
import DocSearch.Document.Action
import DocSearch.Document.Basic
import DocSearch.Document.Calendar
import DocSearch.Document.FieldType
import DocSearch.Document.Instant
import DocSearch.Document.Instant.Reader
import DocSearch.Exchange
import DocSearch.Failure
import DocSearch.Filter.Condition
import DocSearch.Filter.Condition.Json
import DocSearch.Filter.Expression
import DocSearch.Filter.Range
import DocSearch.Json.Basic
import DocSearch.Json.Fault
import DocSearch.Json.Reader
import DocSearch.Json.Record
import DocSearch.Json.Writer
import DocSearch.Main
import DocSearch.Number.Double
import DocSearch.Output
import DocSearch.Proofs.Filter.Grammar
import DocSearch.Proofs.Filter.Range
import DocSearch.Proofs.Text.Decimal
import DocSearch.Proofs.Text.Percent
import DocSearch.Proofs.Text.Split
import DocSearch.Reply.Batch
import DocSearch.Reply.Search
import DocSearch.Request.Facet
import DocSearch.Request.Order
import DocSearch.Request.Search
import DocSearch.Settings
import DocSearch.Settings.File
import DocSearch.Text.Blank
import DocSearch.Text.Decimal
import DocSearch.Text.Digits
import DocSearch.Text.Percent
import DocSearch.Toml.DateTime
import DocSearch.Toml.Quoted
import DocSearch.Toml.Reader
import DocSearch.Toml.Scalar
import DocSearch.Toml.Table
import DocSearch.Toml.Writer
import DocSearch.Yaml.Scalar
import DocSearch.Yaml.Writer
import DocSearch.Proofs.Filter.NormalForm
import DocSearch.Proofs.Filter.Meaning
import DocSearch.Proofs.Json.RoundTrip
import DocSearch.Proofs.Document.ActionJson
import DocSearch.Proofs.Document.Batches
import DocSearch.Proofs.Client.Submission
import DocSearch.Proofs.Request.Pairs
import DocSearch.Proofs.Request.QueryString
import DocSearch.Proofs.Document.Calendar
import DocSearch.Proofs.Document.InstantText
import DocSearch.Proofs.Json.Members
import DocSearch.Proofs.Json.Values
import DocSearch.Proofs.Document.RoundTrip
import DocSearch.Proofs.Reply.Locality
import DocSearch.Proofs.Client.Totals
import DocSearch.Proofs.Client.Searching
import DocSearch.Proofs.Reply.Errors
import DocSearch.Proofs.Document.FewestBatches
import DocSearch.Proofs.Filter.Negation
import DocSearch.Proofs.Client.Scoping
import DocSearch.Proofs.Json.Decode
import DocSearch.Proofs.Filter.ConditionJson
import DocSearch.Proofs.Client.Configuration
import DocSearch.Proofs.Filter.Rearrangement
import DocSearch.Proofs.Filter.RangeSpelling
import DocSearch.Proofs.Document.Spellings
import DocSearch.Proofs.Request.FacetDetails
import DocSearch.Proofs.Reply.Facets
import DocSearch.Proofs.Document.Integers
import DocSearch.Proofs.CommandLine.Filters
import DocSearch.Proofs.Request.FieldsAndOrder
import DocSearch.Proofs.Request.RawQuery
import DocSearch.Proofs.Document.Places
import DocSearch.Proofs.Toml.Keys
import DocSearch.Proofs.CommandLine.Loading
import DocSearch.Proofs.CommandLine.ExitCodes
import DocSearch.Proofs.Client.Counts
