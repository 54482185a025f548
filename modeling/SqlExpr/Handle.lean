import SqlExpr.Expr.Combine

/-! # Shared expressions

A handle is an expression together with the node it stands for, by number. Every construction makes a
new node, and a combination that leaves out an empty operand hands on the other handle as it is. The
empty expression has no node and shares with nothing.
-/
namespace SqlExpr

structure Handle where
  expr : Expr
  node : Option Nat

namespace Handle

def empty : Handle := ⟨.empty, none⟩

/-- A new node, under a number not used before. -/
def make (node : Nat) (e : Expr) : Handle := ⟨e, if e.isEmpty then none else some node⟩

def combine (node : Nat) (op : String) (a b : Handle) : Handle :=
  if a.expr.isEmpty then b
  else if b.expr.isEmpty then a
  else make node (.binary a.expr op b.expr)

def and (node : Nat) (a b : Handle) : Handle := combine node "AND" a b

def or (node : Nat) (a b : Handle) : Handle := combine node "OR" a b

def sharesWith (a b : Handle) : Bool :=
  match a.node, b.node with
  | some m, some n => m == n
  | _, _ => false

theorem expr_combine (node : Nat) (op : String) (a b : Handle) :
    (combine node op a b).expr = Expr.combine op a.expr b.expr := by
  simp only [combine, Expr.combine, make]
  split
  · rfl
  · split <;> rfl

end Handle

end SqlExpr
