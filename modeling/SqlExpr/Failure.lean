import SqlExpr.Expr.KeyFilter

/-! # Failures

A filter over an empty key, a row that its key does not find, and settings that cannot be read.
-/
namespace SqlExpr

inductive Failure where
  | emptyKey (key : EmptyKey)
  | notFound (key : Key)
  /-- The message tells what is wrong with the text of the settings. -/
  | settings (message : String)
deriving DecidableEq

namespace Failure

def message : Failure → String
  | emptyKey key =>
    "ORM configuration error: key for table '" ++ key.table ++ "' has no columns"
  | notFound key => "Object not found by key: " ++ key.text
  | settings message => "Invalid render settings: " ++ message

def isNotFound : Failure → Bool
  | notFound _ => true
  | _ => false

end Failure

end SqlExpr
