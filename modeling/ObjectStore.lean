import ObjectStore.Access.Acl
import ObjectStore.Access.Pointer
import ObjectStore.Access.Protected
import ObjectStore.Access.Validate
import ObjectStore.Aggregate.Group
import ObjectStore.Aggregate.Plan
import ObjectStore.Caller
import ObjectStore.Classes.Delete
import ObjectStore.Classes.Document
import ObjectStore.Classes.Index
import ObjectStore.Classes.Loaded
import ObjectStore.Configuration
import ObjectStore.Decimal.Reading
import ObjectStore.Decimal.Shortest
import ObjectStore.Dict
import ObjectStore.Engine.Journal
import ObjectStore.Engine.Session
import ObjectStore.Error.Basic
import ObjectStore.Error.Fault
import ObjectStore.Error.SqlState
import ObjectStore.Json.Basic
import ObjectStore.Json.Outline
import ObjectStore.Json.Reader
import ObjectStore.Json.Text
import ObjectStore.Objects.Options
import ObjectStore.Objects.Read
import ObjectStore.Objects.Write
import ObjectStore.Proofs.Access.Acceptance
import ObjectStore.Proofs.Access.Acl
import ObjectStore.Proofs.Access.Alternatives
import ObjectStore.Proofs.Access.Asked
import ObjectStore.Proofs.Access.Collapse
import ObjectStore.Proofs.Access.Defaults
import ObjectStore.Proofs.Access.Distribution
import ObjectStore.Proofs.Access.Exactness
import ObjectStore.Proofs.Access.Grammar
import ObjectStore.Proofs.Access.Levels
import ObjectStore.Proofs.Access.Moving
import ObjectStore.Proofs.Access.Pointer
import ObjectStore.Proofs.Access.Redaction
import ObjectStore.Proofs.Access.Reduce
import ObjectStore.Proofs.Access.Restriction
import ObjectStore.Proofs.Access.StoredRow
import ObjectStore.Proofs.Access.Unasked
import ObjectStore.Proofs.Access.Validate
import ObjectStore.Proofs.Access.Validity
import ObjectStore.Proofs.Access.Widening
import ObjectStore.Proofs.Aggregate.Grouping
import ObjectStore.Proofs.Aggregate.Quoted
import ObjectStore.Proofs.Aggregate.Stages
import ObjectStore.Proofs.Classes.Additions
import ObjectStore.Proofs.Classes.Bookkeeping
import ObjectStore.Proofs.Classes.Catalogue
import ObjectStore.Proofs.Classes.Indexes
import ObjectStore.Proofs.Classes.Recorded
import ObjectStore.Proofs.Classes.Rewriting
import ObjectStore.Proofs.Classes.Tolerance
import ObjectStore.Proofs.Classes.Transactions
import ObjectStore.Proofs.Classes.Uniqueness
import ObjectStore.Proofs.Decimal.Double
import ObjectStore.Proofs.Decimal.Nearest
import ObjectStore.Proofs.Decimal.Rounding
import ObjectStore.Proofs.Decimal.Shortest
import ObjectStore.Proofs.Decimal.Written
import ObjectStore.Proofs.Dict
import ObjectStore.Proofs.Engine.Agreement
import ObjectStore.Proofs.Engine.Column
import ObjectStore.Proofs.Engine.Containment
import ObjectStore.Proofs.Engine.Document
import ObjectStore.Proofs.Engine.Lists
import ObjectStore.Proofs.Engine.Sending
import ObjectStore.Proofs.Engine.Tolerance
import ObjectStore.Proofs.Engine.Traces
import ObjectStore.Proofs.Engine.Transactions
import ObjectStore.Proofs.Json.Canonical
import ObjectStore.Proofs.Json.Content
import ObjectStore.Proofs.Json.Equality
import ObjectStore.Proofs.Json.Keys
import ObjectStore.Proofs.Json.Parts
import ObjectStore.Proofs.Json.Paths
import ObjectStore.Proofs.Json.ReadBack
import ObjectStore.Proofs.Objects.Discipline
import ObjectStore.Proofs.Objects.Quoted
import ObjectStore.Proofs.Objects.Records
import ObjectStore.Proofs.Objects.Selection
import ObjectStore.Proofs.Objects.Sending
import ObjectStore.Proofs.Query.Arrays
import ObjectStore.Proofs.Query.Descend
import ObjectStore.Proofs.Query.Entrywise
import ObjectStore.Proofs.Query.Equality
import ObjectStore.Proofs.Query.Folding
import ObjectStore.Proofs.Query.Leaves
import ObjectStore.Proofs.Query.Levels
import ObjectStore.Proofs.Query.Meaning
import ObjectStore.Proofs.Query.Membership
import ObjectStore.Proofs.Query.Mention
import ObjectStore.Proofs.Query.Operators
import ObjectStore.Proofs.Query.Order
import ObjectStore.Proofs.Query.Places
import ObjectStore.Proofs.Query.Prefixes
import ObjectStore.Proofs.Query.Ranking
import ObjectStore.Proofs.Query.Readers
import ObjectStore.Proofs.Query.Value
import ObjectStore.Proofs.Relation.Edges
import ObjectStore.Proofs.Relation.Extraction
import ObjectStore.Proofs.Relation.Intersections
import ObjectStore.Proofs.Relation.Join
import ObjectStore.Proofs.Relation.Kept
import ObjectStore.Proofs.Relation.Lookup
import ObjectStore.Proofs.Relation.Merging
import ObjectStore.Proofs.Relation.Narrowing
import ObjectStore.Proofs.Relation.Related
import ObjectStore.Proofs.Relation.Resolve
import ObjectStore.Proofs.Relation.Sequences
import ObjectStore.Proofs.Relation.Together
import ObjectStore.Proofs.Relation.Unresolved
import ObjectStore.Proofs.Request.Answers
import ObjectStore.Proofs.Request.Columns
import ObjectStore.Proofs.Request.Concealment
import ObjectStore.Proofs.Request.Creation
import ObjectStore.Proofs.Request.Dropping
import ObjectStore.Proofs.Request.Edges
import ObjectStore.Proofs.Request.Enforcement
import ObjectStore.Proofs.Request.Granting
import ObjectStore.Proofs.Request.Grants
import ObjectStore.Proofs.Request.Moving
import ObjectStore.Proofs.Request.Prepare
import ObjectStore.Proofs.Request.Privilege
import ObjectStore.Proofs.Request.Records
import ObjectStore.Proofs.Request.Refusal
import ObjectStore.Proofs.Request.Roles
import ObjectStore.Proofs.Request.Sending
import ObjectStore.Proofs.Request.Writers
import ObjectStore.Proofs.Result
import ObjectStore.Proofs.Schema.RoundTrip
import ObjectStore.Proofs.Sql.ArrayLiteral
import ObjectStore.Proofs.Sql.Connectives
import ObjectStore.Proofs.Sql.Effects
import ObjectStore.Proofs.Sql.Lexer
import ObjectStore.Proofs.Sql.Quotes
import ObjectStore.Proofs.Sql.ReadBack
import ObjectStore.Proofs.Sql.Sound
import ObjectStore.Proofs.Sql.Truth
import ObjectStore.Proofs.Sql.Windows
import ObjectStore.Proofs.Statement.Inline
import ObjectStore.Proofs.Statement.Quoting
import ObjectStore.Proofs.Statement.Writing
import ObjectStore.Proofs.Text.Comments
import ObjectStore.Proofs.Text.Regions
import ObjectStore.Proofs.Text.Split
import ObjectStore.Proofs.Time.Calendar
import ObjectStore.Proofs.Time.Canonical
import ObjectStore.Proofs.Time.Relative
import ObjectStore.Proofs.Time.Timestamp
import ObjectStore.Proofs.Update.Columns
import ObjectStore.Proofs.Update.Documents
import ObjectStore.Proofs.Update.Effects
import ObjectStore.Proofs.Update.Fresh
import ObjectStore.Proofs.Update.Readable
import ObjectStore.Proofs.Value.Coordinates
import ObjectStore.Proofs.Value.Geo
import ObjectStore.Proofs.Value.Rings
import ObjectStore.Proofs.Value.RoundTrip
import ObjectStore.Proofs.Value.Wire
import ObjectStore.Query.Branches
import ObjectStore.Query.Compile
import ObjectStore.Query.Constraint
import ObjectStore.Query.FieldRef
import ObjectStore.Relation.Edges
import ObjectStore.Relation.Resolve
import ObjectStore.Request.Class
import ObjectStore.Request.Prepare
import ObjectStore.Request.Read
import ObjectStore.Request.Write
import ObjectStore.Schema.Basic
import ObjectStore.Schema.Document
import ObjectStore.Schema.FieldType
import ObjectStore.Schema.Operation
import ObjectStore.Schema.Permission
import ObjectStore.Setup
import ObjectStore.Sql.Basic
import ObjectStore.Statement.Basic
import ObjectStore.Statement.Metadata
import ObjectStore.Statement.Relation
import ObjectStore.Statement.Rows
import ObjectStore.Statement.Table
import ObjectStore.Text.Letter
import ObjectStore.Text.Lowercase
import ObjectStore.Text.Pattern
import ObjectStore.Text.Split
import ObjectStore.Time.Relative
import ObjectStore.Time.Timestamp
import ObjectStore.Update.Assignment
import ObjectStore.Update.Operators
import ObjectStore.Value.Column
import ObjectStore.Value.Decode
import ObjectStore.Value.Encode
import ObjectStore.Value.Geo
import ObjectStore.Value.Tag
