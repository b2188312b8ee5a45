import RecordMapper.Capability
import RecordMapper.Derive.Argument
import RecordMapper.Derive.Expansion
import RecordMapper.Derive.Fault
import RecordMapper.Derive.Grammar
import RecordMapper.Derive.Grammar.Attribute
import RecordMapper.Derive.Grammar.Bound
import RecordMapper.Derive.Grammar.Definition
import RecordMapper.Derive.Grammar.Expression
import RecordMapper.Derive.Grammar.Function
import RecordMapper.Derive.Grammar.Item
import RecordMapper.Derive.Grammar.Member
import RecordMapper.Derive.Grammar.Operator
import RecordMapper.Derive.Grammar.Path
import RecordMapper.Derive.Grammar.Pattern
import RecordMapper.Derive.Grammar.Phrase
import RecordMapper.Derive.Grammar.Statement
import RecordMapper.Derive.Grammar.Type
import RecordMapper.Derive.Item
import RecordMapper.Derive.Lexeme
import RecordMapper.Derive.Literal
import RecordMapper.Derive.Meaning
import RecordMapper.Derive.Peek
import RecordMapper.Derive.Reader
import RecordMapper.Derive.Spec
import RecordMapper.Derive.Token
import RecordMapper.Error
import RecordMapper.Expr
import RecordMapper.Json.Basic
import RecordMapper.Json.Members
import RecordMapper.Json.NumberReader
import RecordMapper.Json.Printer
import RecordMapper.Json.Reader
import RecordMapper.Migration.Change
import RecordMapper.Migration.Index
import RecordMapper.Migration.Live
import RecordMapper.Migration.Plan
import RecordMapper.Migration.Rename
import RecordMapper.Migration.Uniqueness
import RecordMapper.Native
import RecordMapper.Number.Binary
import RecordMapper.Number.IntKind
import RecordMapper.Number.Layout
import RecordMapper.Number.Numeral
import RecordMapper.Number.Reading
import RecordMapper.Number.Shortest
import RecordMapper.Pipeline.Argument
import RecordMapper.Pipeline.Loading
import RecordMapper.Pipeline.Request
import RecordMapper.Pipeline.Response
import RecordMapper.Pipeline.Tagged
import RecordMapper.Proofs.Engine.Constraint
import RecordMapper.Proofs.Engine.Database
import RecordMapper.Proofs.Engine.Execution
import RecordMapper.Proofs.Engine.Soundness
import RecordMapper.Proofs.Engine.StoredIndex
import RecordMapper.Proofs.Migration.Renames
import RecordMapper.Proofs.Migration.Settled
import RecordMapper.Proofs.Schema.Validity
import RecordMapper.Proofs.Text.Plain
import RecordMapper.Proofs.Text.Words
import RecordMapper.Query.Basic
import RecordMapper.Query.Fault
import RecordMapper.Query.Lowering
import RecordMapper.Query.Plan
import RecordMapper.Record
import RecordMapper.RecordFault
import RecordMapper.Schema.Catalog
import RecordMapper.Schema.Declaration
import RecordMapper.Schema.JoinTarget
import RecordMapper.Schema.Mapping
import RecordMapper.Schema.Storage
import RecordMapper.Sql.Filter
import RecordMapper.Sql.Fragment
import RecordMapper.Sql.Name
import RecordMapper.Sql.Select
import RecordMapper.Statement.Basic
import RecordMapper.Statement.Row
import RecordMapper.Text.AsciiCase
import RecordMapper.Text.Base64
import RecordMapper.Text.Blank
import RecordMapper.Text.CaseFold
import RecordMapper.Text.Identifier
import RecordMapper.Text.Printable
import RecordMapper.Text.Ranges
import RecordMapper.Timestamp
import RecordMapper.Value
import RecordMapper.Wire.Decode
import RecordMapper.Wire.Row
import RecordMapper.Wire.RowId
import RecordMapper.Wire.Value
import RecordMapper.Wire.Vector
import RecordMapper.Proofs.Migration.Indexing
import RecordMapper.Proofs.Migration.Creation
import RecordMapper.Proofs.Migration.InPlace
import RecordMapper.Proofs.Migration.Idempotence
import RecordMapper.Proofs.Sql.Grouping
import RecordMapper.Proofs.Sql.Truth
import RecordMapper.Proofs.Sql.Layout
import RecordMapper.Proofs.Query.Grouping
import RecordMapper.Proofs.Number.Numeral
import RecordMapper.Proofs.Number.Words
import RecordMapper.Proofs.Query.Scope
import RecordMapper.Proofs.Text.Base64
import RecordMapper.Proofs.Wire.Vector
import RecordMapper.Proofs.Number.Rounding
import RecordMapper.Proofs.Wire.Cell
import RecordMapper.Proofs.Wire.Row
import RecordMapper.Proofs.Wire.Deciding
import RecordMapper.Proofs.Wire.Outcome
import RecordMapper.Proofs.Statement.RoundTrip
import RecordMapper.Proofs.Statement.RowKey
import RecordMapper.Proofs.Query.Parameters
import RecordMapper.Proofs.Query.Alias
import RecordMapper.Proofs.Query.Grammar
import RecordMapper.Proofs.Query.NullComparison
import RecordMapper.Proofs.Query.Casts
import RecordMapper.Proofs.Statement.Parameters
import RecordMapper.Proofs.Engine.Table
import RecordMapper.Proofs.Migration.Rows
import RecordMapper.Proofs.Migration.Interplay
import RecordMapper.Proofs.Migration.Provision
import RecordMapper.Proofs.Migration.Uniqueness
import RecordMapper.Proofs.Migration.Drops
import RecordMapper.Proofs.Migration.UniqueIndexes
import RecordMapper.Proofs.Migration.Parenthesized
import RecordMapper.Proofs.Migration.UniqueCount
import RecordMapper.Proofs.Migration.IndexSync
import RecordMapper.Proofs.Migration.IndexCoverage
import RecordMapper.Proofs.Pipeline.Sending
import RecordMapper.Proofs.Migration.ColumnNames
import RecordMapper.Proofs.Migration.Retention
import RecordMapper.Proofs.Migration.Contents
import RecordMapper.Proofs.Migration.KeyType
import RecordMapper.Proofs.Schema.DefaultKey
import RecordMapper.Proofs.Derive.ItemName
import RecordMapper.Proofs.Derive.Quotation
import RecordMapper.Proofs.Derive.Meaning
import RecordMapper.Proofs.Derive.Agreement
import RecordMapper.Proofs.Number.Shortest
import RecordMapper.Proofs.Json.Strings
import RecordMapper.Proofs.Json.Numbers
import RecordMapper.Proofs.Json.Text
import RecordMapper.Proofs.Pipeline.Envelope
import RecordMapper.Proofs.Query.Clauses
import RecordMapper.Proofs.Query.Aggregate
import RecordMapper.Proofs.Query.OrderAlias
import RecordMapper.Proofs.Query.Patterns
import RecordMapper.Proofs.Statement.Layout
import RecordMapper.Proofs.Text.Trimming
import RecordMapper.Proofs.Number.Integral
import RecordMapper.Proofs.Wire.Payload
import RecordMapper.Proofs.Wire.Dimension
import RecordMapper.Proofs.Wire.Integer
import RecordMapper.Proofs.Wire.Destination
import RecordMapper.Proofs.Derive.Arguments
import RecordMapper.Proofs.Schema.Acceptance
import RecordMapper.Proofs.Wire.RowId
import RecordMapper.Proofs.Derive.Gathering
import RecordMapper.Proofs.Derive.Arrangement
import RecordMapper.Proofs.Derive.References
