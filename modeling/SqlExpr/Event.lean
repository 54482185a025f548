import SqlExpr.Expr.KeyFilter
import SqlExpr.Expr.Tables
import SqlExpr.Render.Basic

/-! # Events

What a log is told of renderings, of collections of tables and of keys that were refused.
-/
namespace SqlExpr

inductive Event where
  /-- The size is that of the text in UTF-8. -/
  | rendered (dialect : Dialect) (size bound : Nat)
  | tablesCollected (found total : Nat)
  | emptyKeyRefused (table : String)
deriving DecidableEq

namespace Event

def level : Event → String
  | rendered .. => "TRACE"
  | tablesCollected .. => "DEBUG"
  | emptyKeyRefused _ => "WARN"

def message : Event → String
  | rendered .. => "rendered expression"
  | tablesCollected .. => "collected referenced tables"
  | emptyKeyRefused _ => "rejecting key filter over an empty key"

def fields : Event → List (String × String)
  | rendered dialect size bound =>
    [("dialect", dialect.name), ("sql_len", size.repr), ("bound", bound.repr)]
  | tablesCollected found total => [("found", found.repr), ("total", total.repr)]
  | emptyKeyRefused table => [("table", table)]

end Event

def Renderer.event (r : Renderer) : Event := .rendered r.dialect r.sql.utf8ByteSize r.bound

def tablesEvent (known tables : List String) : Event :=
  .tablesCollected (tables.length - known.length) tables.length

def EmptyKey.event (k : EmptyKey) : Event := .emptyKeyRefused k.table

end SqlExpr
