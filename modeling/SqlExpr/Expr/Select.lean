import SqlExpr.Expr.Basic

/-! # Building queries

A query under construction is a record of its select list and five clauses, each empty until it is
set. Setting a clause again replaces it.
-/
namespace SqlExpr

inductive Clause where
  | source
  | condition
  | grouping
  | having
  | ordering
deriving DecidableEq

def Clause.keyword : Clause → String
  | source => "FROM"
  | condition => "WHERE"
  | grouping => "GROUP BY"
  | having => "HAVING"
  | ordering => "ORDER BY"

/-- The clauses in the order of their text. -/
def Clause.all : List Clause := [source, condition, grouping, having, ordering]

structure Select where
  columns : Expr
  source : Expr := .empty
  condition : Expr := .empty
  grouping : Expr := .empty
  having : Expr := .empty
  ordering : Expr := .empty

namespace Select

def ofColumns (columns : Expr) : Select := { columns }

def clause (q : Select) : Clause → Expr
  | .source => q.source
  | .condition => q.condition
  | .grouping => q.grouping
  | .having => q.having
  | .ordering => q.ordering

def set (q : Select) (c : Clause) (e : Expr) : Select :=
  match c with
  | .source => { q with source := e }
  | .condition => { q with condition := e }
  | .grouping => { q with grouping := e }
  | .having => { q with having := e }
  | .ordering => { q with ordering := e }

def toExpr (q : Select) : Expr :=
  .select q.columns q.source q.condition q.grouping q.having q.ordering

@[ext] theorem ext_clause {q q' : Select} (hc : q.columns = q'.columns)
    (h : ∀ c, q.clause c = q'.clause c) : q = q' := by
  cases q; cases q'
  have h₁ := h .source
  have h₂ := h .condition
  have h₃ := h .grouping
  have h₄ := h .having
  have h₅ := h .ordering
  simp_all [clause]

@[simp] theorem columns_set (q : Select) (c : Clause) (e : Expr) :
    (q.set c e).columns = q.columns := by
  cases c <;> rfl

@[simp] theorem clause_set (q : Select) (c c' : Clause) (e : Expr) :
    (q.set c e).clause c' = if c = c' then e else q.clause c' := by
  cases c <;> cases c' <;> rfl

@[simp] theorem clause_ofColumns (columns : Expr) (c : Clause) :
    (ofColumns columns).clause c = .empty := by
  cases c <;> rfl

end Select

end SqlExpr
