import SqlExpr.Expr.Basic

/-! # The constants of an expression

All values of an expression from left to right: the clauses of a query in the order of their text, and
the values of a key in the order of its parts.
-/
namespace SqlExpr.Expr

mutual
def constants : Expr → List Value
  | empty => []
  | raw _ => []
  | column .. => []
  | computed inner _ => constants inner
  | constant v => [v]
  | binary left _ right => constants left ++ constants right
  | join _ left right condition => constants left ++ constants right ++ constants condition
  | list items => itemConstants items
  | select columns source condition grouping having ordering =>
    constants columns ++ constants source ++ constants condition ++ constants grouping ++
      constants having ++ constants ordering
  | keyFilter f => f.key.values

def itemConstants : List Expr → List Value
  | [] => []
  | e :: es => constants e ++ itemConstants es
end

end SqlExpr.Expr
