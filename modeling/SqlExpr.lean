import SqlExpr.Event
import SqlExpr.Expr.Equal
import SqlExpr.Expr.Items
import SqlExpr.Expr.Qualifiers
import SqlExpr.Expr.Select
import SqlExpr.Handle
import SqlExpr.Json.KeyForm
import SqlExpr.Proofs.Aliases
import SqlExpr.Proofs.Applications
import SqlExpr.Proofs.Inlining
import SqlExpr.Proofs.Reading
import SqlExpr.Proofs.Subqueries
import SqlExpr.Proofs.Tables
import SqlExpr.Settings
import SqlExpr.Proofs.Decoding
import SqlExpr.Proofs.Layers
import SqlExpr.Proofs.ListOperands
import SqlExpr.Proofs.JoinReading
import SqlExpr.Proofs.KeyFilters
import SqlExpr.Proofs.Queries
import SqlExpr.Proofs.EmptyOperands
import SqlExpr.Proofs.Json.RoundTrip
import SqlExpr.Proofs.QuotedIdentifiers
import SqlExpr.Proofs.SharedSinks
import SqlExpr.Proofs.TemporalLiterals
import SqlExpr.Proofs.SelfDelimiting
import SqlExpr.Proofs.ByteOffsets
import SqlExpr.Proofs.Tokens
import SqlExpr.Proofs.QuotedConstants
import SqlExpr.Proofs.Textless
