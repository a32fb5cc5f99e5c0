import TransactScript.Calendar
import TransactScript.Column
import TransactScript.ColumnList
import TransactScript.Document.Entity
import TransactScript.Document.Load
import TransactScript.Document.OfJson
import TransactScript.Document.OfYaml
import TransactScript.Document.ToJson
import TransactScript.Draft.Insert
import TransactScript.Draft.Table
import TransactScript.HostType
import TransactScript.HostType.Typed
import TransactScript.Json.Number
import TransactScript.Json.Reader
import TransactScript.Json.Writer
import TransactScript.Literal
import TransactScript.Literal.OfJson
import TransactScript.Name
import TransactScript.Number.Binary
import TransactScript.Number.Notation
import TransactScript.Number.Reading
import TransactScript.Section
import TransactScript.Session
import TransactScript.Text.Quoted
import TransactScript.Yaml.Cursor
import TransactScript.Yaml.Lexer
import TransactScript.Yaml.Node
import TransactScript.Yaml.Scalar
import TransactScript.Yaml.Token
import TransactScript.Proofs.ColumnList
import TransactScript.Proofs.Fault
import TransactScript.Proofs.Schema
import TransactScript.Proofs.Document.Reading
import TransactScript.Proofs.Document.Schemas
import TransactScript.Proofs.Draft.Growth
import TransactScript.Proofs.Draft.Mirror
import TransactScript.Proofs.Draft.Refusal
import TransactScript.Proofs.Session.Transition
import TransactScript.Proofs.Session.Run
import TransactScript.Proofs.Session.Naming
import TransactScript.Proofs.Session.Failure
import TransactScript.Proofs.Session.Finalizing
import TransactScript.Proofs.Session.History
import TransactScript.Proofs.Session.Rendering
import TransactScript.Proofs.Text.Scan
import TransactScript.Proofs.Text.Trim
import TransactScript.Proofs.Statement
import TransactScript.Proofs.Text.Atom
import TransactScript.Proofs.Statement.Neutral
import TransactScript.Proofs.Injection
import TransactScript.Proofs.Draft.Generation
import TransactScript.Proofs.Session.Generation
import TransactScript.Proofs.Statement.Declaration
import TransactScript.Proofs.Statement.Key
import TransactScript.Proofs.Statement.Insertion
import TransactScript.Proofs.Session.Continuation
import TransactScript.Proofs.Session.Freezing
import TransactScript.Proofs.Statement.Batches
import TransactScript.Proofs.Renderer
import TransactScript.Proofs.Name.Grammar
import TransactScript.Proofs.HostType
import TransactScript.Proofs.Text.Numeral
import TransactScript.Proofs.Literal.Reading
import TransactScript.Proofs.Number.Shortest
import TransactScript.Proofs.Json.Integer
import TransactScript.Proofs.Literal.OfJson
import TransactScript.Proofs.Statement.Query
import TransactScript.Proofs.Json.Reading
import TransactScript.Proofs.Document.Fields
import TransactScript.Proofs.Document.Column
import TransactScript.Proofs.Document.Outline
import TransactScript.Proofs.Document.Descriptor
import TransactScript.Proofs.Text.Padded
import TransactScript.Proofs.Calendar.Order
import TransactScript.Proofs.Calendar.Text
import TransactScript.Proofs.Calendar.Offset
import TransactScript.Proofs.Punctuation
import TransactScript.Proofs.Draft.Report
import TransactScript.Proofs.Session.Report
import TransactScript.Proofs.ColumnList.History
import TransactScript.Proofs.Document.NamedFields
import TransactScript.Proofs.InPlace
import TransactScript.Proofs.Session.InPlace
