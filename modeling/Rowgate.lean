import Rowgate.Cache.Basic
import Rowgate.Cache.Callers
import Rowgate.Cache.Reading
import Rowgate.Cache.Turns
import Rowgate.Calendar.Date
import Rowgate.Calendar.IsoReader
import Rowgate.Calendar.IsoText
import Rowgate.Calendar.Pattern
import Rowgate.Encoding.Base64
import Rowgate.Encoding.Charset
import Rowgate.Encoding.Form
import Rowgate.Encoding.Utf8
import Rowgate.Entity.Basic
import Rowgate.Entity.Coerce
import Rowgate.Entity.Shape
import Rowgate.Fault
import Rowgate.Filter.Condition
import Rowgate.Filter.Equality
import Rowgate.Filter.Operator
import Rowgate.Filter.Tree
import Rowgate.Gateway.Backend
import Rowgate.Gateway.Basic
import Rowgate.Gateway.Chain
import Rowgate.Json.Marks
import Rowgate.Json.Reader
import Rowgate.Json.Writer
import Rowgate.Log
import Rowgate.Number.Binary64
import Rowgate.Number.Decimal
import Rowgate.Number.DecimalText
import Rowgate.Number.Integer
import Rowgate.Number.Shortest
import Rowgate.Proofs.Cache.Forgetting
import Rowgate.Proofs.Cache.Scene
import Rowgate.Proofs.Cache.SingleFlight
import Rowgate.Proofs.Calendar.IsoText
import Rowgate.Proofs.Calendar.OffsetText
import Rowgate.Proofs.Calendar.Ordinal
import Rowgate.Proofs.Calendar.Pattern
import Rowgate.Proofs.Encoding.Base64
import Rowgate.Proofs.Encoding.Form
import Rowgate.Proofs.Encoding.Utf8
import Rowgate.Proofs.Entity.Form
import Rowgate.Proofs.Entity.Idempotent
import Rowgate.Proofs.Entity.Moment
import Rowgate.Proofs.Entity.Prescribed
import Rowgate.Proofs.Filter.Conditions
import Rowgate.Proofs.Filter.Cut
import Rowgate.Proofs.Filter.RoundTrip
import Rowgate.Proofs.Filter.SentBack
import Rowgate.Proofs.Filter.Tidied
import Rowgate.Proofs.Filter.WrittenForm
import Rowgate.Proofs.Gateway.Chain
import Rowgate.Proofs.Gateway.History
import Rowgate.Proofs.Gateway.Informed
import Rowgate.Proofs.Gateway.PutBack
import Rowgate.Proofs.Gateway.Refusal
import Rowgate.Proofs.Gateway.Revision
import Rowgate.Proofs.Gateway.Routing
import Rowgate.Proofs.Gateway.Serving
import Rowgate.Proofs.Gateway.Sharing
import Rowgate.Proofs.Gateway.Writes
import Rowgate.Proofs.Json.Acceptance
import Rowgate.Proofs.Json.Boundary
import Rowgate.Proofs.Json.Completeness
import Rowgate.Proofs.Json.Grammar
import Rowgate.Proofs.Json.Marked
import Rowgate.Proofs.Json.Marks
import Rowgate.Proofs.Json.Numbers
import Rowgate.Proofs.Json.RoundTrip
import Rowgate.Proofs.Json.Sending
import Rowgate.Proofs.Json.Soundness
import Rowgate.Proofs.Json.Strings
import Rowgate.Proofs.Number.DecimalText
import Rowgate.Proofs.Number.Digits
import Rowgate.Proofs.Number.Magnitude
import Rowgate.Proofs.Outcome
import Rowgate.Proofs.Query.Following
import Rowgate.Proofs.Query.LastValues
import Rowgate.Proofs.Query.Parsed
import Rowgate.Proofs.Query.RoundTrip
import Rowgate.Proofs.Query.SearchFilter
import Rowgate.Proofs.Query.SearchText
import Rowgate.Proofs.Query.Settled
import Rowgate.Proofs.Request.Body
import Rowgate.Proofs.Request.Fields
import Rowgate.Proofs.Sort.Ranked
import Rowgate.Proofs.Sort.Total
import Rowgate.Proofs.Sql.Agreement
import Rowgate.Proofs.Sql.Blocks
import Rowgate.Proofs.Sql.Bound
import Rowgate.Proofs.Sql.Condition
import Rowgate.Proofs.Sql.Counterpart
import Rowgate.Proofs.Sql.Dialogue
import Rowgate.Proofs.Sql.Fetching
import Rowgate.Proofs.Sql.Insertion
import Rowgate.Proofs.Sql.KeyedWrite
import Rowgate.Proofs.Sql.Like
import Rowgate.Proofs.Sql.NewKey
import Rowgate.Proofs.Sql.NewRow
import Rowgate.Proofs.Sql.Placeholders
import Rowgate.Proofs.Sql.Refused
import Rowgate.Proofs.Sql.Search
import Rowgate.Proofs.Sql.Transaction
import Rowgate.Proofs.Sql.Truth
import Rowgate.Proofs.Sql.Wording
import Rowgate.Proofs.Store.Alike
import Rowgate.Proofs.Store.Browsing
import Rowgate.Proofs.Store.Complete
import Rowgate.Proofs.Store.Drawing
import Rowgate.Proofs.Store.Findings
import Rowgate.Proofs.Store.FirstTwo
import Rowgate.Proofs.Store.Index
import Rowgate.Proofs.Store.KeyEquality
import Rowgate.Proofs.Store.KeyOrder
import Rowgate.Proofs.Store.Ledger
import Rowgate.Proofs.Store.Operators
import Rowgate.Proofs.Store.Paging
import Rowgate.Proofs.Store.PutBack
import Rowgate.Proofs.Store.Refinement
import Rowgate.Proofs.Store.Revision
import Rowgate.Proofs.Store.Rows
import Rowgate.Proofs.Store.Same
import Rowgate.Proofs.Store.Shelf
import Rowgate.Proofs.Store.Shown
import Rowgate.Proofs.Store.SortOrder
import Rowgate.Proofs.Store.Unfailing
import Rowgate.Proofs.Value.Datum
import Rowgate.Proofs.Value.Literal
import Rowgate.Proofs.Value.Portable
import Rowgate.Proofs.Value.Respelling
import Rowgate.Proofs.Value.Sent
import Rowgate.Proofs.Work
import Rowgate.Query.Basic
import Rowgate.Query.Outline
import Rowgate.Query.Reader
import Rowgate.Query.Search
import Rowgate.Query.Writer
import Rowgate.Request.Basic
import Rowgate.Request.Body
import Rowgate.Request.Fields
import Rowgate.Request.Route
import Rowgate.Service
import Rowgate.Sort.Insertion
import Rowgate.Sort.Merge
import Rowgate.Sort.Runs
import Rowgate.Sort.Search
import Rowgate.Sql.Address
import Rowgate.Sql.Catalog
import Rowgate.Sql.Clause
import Rowgate.Sql.Dialect
import Rowgate.Sql.FilterClause
import Rowgate.Sql.Fragment
import Rowgate.Sql.Pattern
import Rowgate.Sql.Service
import Rowgate.Sql.Session
import Rowgate.Sql.Spelling
import Rowgate.Sql.Statement
import Rowgate.Sql.Table
import Rowgate.Store.Evaluate
import Rowgate.Store.File
import Rowgate.Store.Predicate
import Rowgate.Store.Service
import Rowgate.Store.Sorting
import Rowgate.Text.Blank
import Rowgate.Text.Case
import Rowgate.Text.CaseTable
import Rowgate.Text.Digit
import Rowgate.Text.Hex
import Rowgate.Text.Pieces
import Rowgate.Text.PrintableTable
import Rowgate.Text.Quoted
import Rowgate.Text.Range
import Rowgate.Text.Similar
import Rowgate.Text.Surrogate
import Rowgate.Value.Basic
import Rowgate.Value.Order
import Rowgate.Value.Shape
import Rowgate.Value.Text
import Rowgate.Work
