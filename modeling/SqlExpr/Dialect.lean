import SqlExpr.Value

/-! # Dialects

A dialect fixes how a placeholder is spelled and how a literal is written.
-/
namespace SqlExpr

inductive Dialect where
  | ansi
  | postgres
  | mysql
deriving DecidableEq

namespace Dialect

def name : Dialect → String
  | ansi => "ANSI"
  | postgres => "PostgreSQL"
  | mysql => "MySQL"

/-- The placeholder of the parameter at an index counted from zero. PostgreSQL numbers its parameters
from one, the others do not number them. -/
def placeholder : Dialect → Nat → String
  | postgres, index => String.ofList ('$' :: Text.digits (index + 1))
  | _, _ => "?"

/-- A backslash in a MySQL string escapes the next character, so each is doubled. -/
def literal : Dialect → Value → String
  | postgres, .bytes bs => Value.quotedText ("\\x" ++ Value.hexText bs) ++ "::bytea"
  | mysql, .string s => Value.quotedText (String.ofList (Text.doubled '\\' s.toList))
  | _, v => v.literal

end Dialect

end SqlExpr
