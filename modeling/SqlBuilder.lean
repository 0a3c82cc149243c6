import SqlBuilder.Keyword
import SqlBuilder.Identifier
import SqlBuilder.Name
import SqlBuilder.Json.Compact
import SqlBuilder.Json.Document
import SqlBuilder.Time.Written
import SqlBuilder.Uuid
import SqlBuilder.Json.Scan
import SqlBuilder.Postgres.BinaryForm
import SqlBuilder.Query.Select
import SqlBuilder.Sql.Built
import SqlBuilder.Statement.Cursor
import SqlBuilder.Serial.Statement
import SqlBuilder.Proofs.Nested
import SqlBuilder.Proofs.Rendering
import SqlBuilder.Proofs.Noninterference
import SqlBuilder.Proofs.Meaning
import SqlBuilder.Proofs.Lexer
import SqlBuilder.Proofs.Injection
import SqlBuilder.Proofs.Clauses
import SqlBuilder.Proofs.Deletion
import SqlBuilder.Proofs.Contents
import SqlBuilder.Proofs.WellFormed
import SqlBuilder.Proofs.Navigation
import SqlBuilder.Proofs.Resumption
import SqlBuilder.Proofs.Frame
import SqlBuilder.Proofs.Occurrence
import SqlBuilder.Proofs.Equality
import SqlBuilder.Proofs.Membership
import SqlBuilder.Proofs.Digits
import SqlBuilder.Proofs.Rounding
import SqlBuilder.Proofs.Decimals
import SqlBuilder.Proofs.Instants
import SqlBuilder.Proofs.JsonText
import SqlBuilder.Proofs.Codecs
import SqlBuilder.Proofs.RoundTrip
import SqlBuilder.Proofs.Targets
import SqlBuilder.Proofs.Qualification
import SqlBuilder.Proofs.ListKeys
import SqlBuilder.Proofs.Rebinding
import SqlBuilder.Proofs.Failure
import SqlBuilder.Proofs.Reordering
import SqlBuilder.Proofs.Assignments
import SqlBuilder.Proofs.BinaryReading
import SqlBuilder.Proofs.Encoding
import SqlBuilder.Proofs.Microseconds
import SqlBuilder.Proofs.NameReading
import SqlBuilder.Proofs.DottedNames
import SqlBuilder.Proofs.Clipping
import SqlBuilder.Proofs.Conjunctions
import SqlBuilder.Proofs.Rearrangement
