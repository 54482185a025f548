import SqlExpr.Expr.Combine

/-! # Filters by key

The filter of a key is the conjunction, from the left, of one equality for each part of the key. A key
without parts has no filter.
-/
namespace SqlExpr

structure EmptyKey where
  table : String
deriving DecidableEq

namespace KeyFilter

def ofKey (k : Key) : Except EmptyKey KeyFilter :=
  if h : k.parts = [] then .error ⟨k.table⟩ else .ok ⟨k, h⟩

def condition (table : String) (part : String × Value) : Expr :=
  .binary (.qualified table part.1) "=" (.constant part.2)

def conjunction (f : KeyFilter) : Expr :=
  f.key.parts.foldl (fun e part => e.and (condition f.key.table part)) .empty

end KeyFilter

end SqlExpr
