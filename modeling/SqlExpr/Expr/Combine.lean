import SqlExpr.Expr.Basic

/-! # Filters and their combination

A filter compares a column with a value. Conjunction and disjunction take nothing for granted but the
empty expression, which they leave out.
-/
namespace SqlExpr

inductive Comparison where
  | eq
  | ne
  | lt
  | gt
  | le
  | ge
deriving DecidableEq

def Comparison.symbol : Comparison → String
  | eq => "="
  | ne => "<>"
  | lt => "<"
  | gt => ">"
  | le => "<="
  | ge => ">="

namespace Expr

def filter (c : Comparison) (name : String) (value : Value) : Expr :=
  binary (named name) c.symbol (constant value)

/-- Both operands under an operator, or the one that is there. -/
def combine (op : String) (a b : Expr) : Expr :=
  if a.isEmpty then b else if b.isEmpty then a else binary a op b

def and (a b : Expr) : Expr := combine "AND" a b

def or (a b : Expr) : Expr := combine "OR" a b

def equals (a b : Expr) : Expr := binary a "=" b

def equalsValue (a : Expr) (value : Value) : Expr := equals a (constant value)

@[simp] theorem combine_empty_left (op : String) (b : Expr) : combine op empty b = b := rfl

@[simp] theorem combine_empty_right (op : String) (a : Expr) : combine op a empty = a := by
  cases a <;> rfl

theorem combine_of_not_isEmpty {op : String} {a b : Expr} (ha : a.isEmpty = false)
    (hb : b.isEmpty = false) : combine op a b = binary a op b := by
  simp [combine, ha, hb]

theorem isEmpty_combine (op : String) (a b : Expr) :
    (combine op a b).isEmpty = (a.isEmpty && b.isEmpty) := by
  unfold combine
  cases ha : a.isEmpty
  · cases hb : b.isEmpty
    · rfl
    · simp [ha]
  · simp

end Expr

end SqlExpr
