import SqlExpr.Expr.Basic

/-! # The items of a list

Access to an item by its index, and the distinct names of a set in their order by code point.
-/
namespace SqlExpr

structure OutOfBounds where
  size : Nat
  index : Nat
deriving DecidableEq

def OutOfBounds.message (e : OutOfBounds) : String :=
  "index out of bounds: the len is " ++ e.size.repr ++ " but the index is " ++ e.index.repr

def itemAt (items : List Expr) (index : Nat) : Except OutOfBounds Expr :=
  match items[index]? with
  | some e => .ok e
  | none => .error ⟨items.length, index⟩

/-- The distinct texts of a list, in the order of their code points. -/
def distinctNames (names : List String) : List String :=
  names.eraseDups.mergeSort fun a b => decide (a ≤ b)

def Expr.ofNameSet (names : List String) : List Expr := (distinctNames names).map ofText

end SqlExpr
