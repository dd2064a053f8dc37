import SchemaQuery.Main
import SchemaQuery.Proofs.Attribute.Pieces
import SchemaQuery.Proofs.Attribute.Positions
import SchemaQuery.Proofs.Attribute.Sealed
import SchemaQuery.Proofs.Attribute.Separation
import SchemaQuery.Proofs.Command.Modules
import SchemaQuery.Proofs.Command.Outcome
import SchemaQuery.Proofs.Query.FilterLines
import SchemaQuery.Proofs.Query.KeyOrder
import SchemaQuery.Proofs.Query.NestedLines
import SchemaQuery.Proofs.Query.Partition
import SchemaQuery.Proofs.Query.Precedence
import SchemaQuery.Proofs.Query.ReadBack
import SchemaQuery.Proofs.Query.Reports
import SchemaQuery.Proofs.Query.RoundTrip
import SchemaQuery.Proofs.Query.Routing
import SchemaQuery.Proofs.Schema.Accounts
import SchemaQuery.Proofs.Schema.AttributeOrder
import SchemaQuery.Proofs.Schema.Concatenation
import SchemaQuery.Proofs.Schema.Decoded
import SchemaQuery.Proofs.Schema.Edges
import SchemaQuery.Proofs.Schema.Failure
import SchemaQuery.Proofs.Schema.Leftmost
import SchemaQuery.Proofs.Schema.Margins
import SchemaQuery.Proofs.Token.Calls
import SchemaQuery.Proofs.Token.Grammar
import SchemaQuery.Proofs.Schema.Cards
