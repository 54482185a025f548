import SqlExpr.Expr.Basic

/-! # Structural equality

Two expressions are equal when they are built alike from the same texts and from values that are equal
as values. An expression with a NaN in it is therefore not equal to itself.
-/
namespace SqlExpr.Expr

mutual
def equal : Expr → Expr → Bool
  | empty, empty => true
  | raw a, raw b => a == b
  | column t n a, column t' n' a' => t == t' && n == n' && a == a'
  | computed e a, computed e' a' => equal e e' && a == a'
  | constant v, constant v' => v.equal v'
  | binary l op r, binary l' op' r' => equal l l' && op == op' && equal r r'
  | join k l r c, join k' l' r' c' => k == k' && equal l l' && equal r r' && equal c c'
  | list es, list es' => equalItems es es'
  | select c s w g h o, select c' s' w' g' h' o' =>
    equal c c' && equal s s' && equal w w' && equal g g' && equal h h' && equal o o'
  | keyFilter f, keyFilter f' => f.key.equal f'.key
  | _, _ => false

def equalItems : List Expr → List Expr → Bool
  | [], [] => true
  | e :: es, e' :: es' => equal e e' && equalItems es es'
  | _, _ => false
end

end SqlExpr.Expr
