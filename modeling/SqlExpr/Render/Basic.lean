import SqlExpr.Render.Renderer

/-! # The rendering of an expression

Each node writes its text into a renderer. An infix operator is always one group in parentheses, so
that no precedence has to be known; joins and lists are written without parentheses of their own. A
column shows its alias only where a select list has it as an item.
-/
namespace SqlExpr.Expr

mutual
def renderTo : Expr → Position → Renderer → Renderer
  | empty, _, r => r
  | raw sql, _, r => r.push sql.text
  | column table name label, p, r =>
    r.push (Fragment.aliased (Fragment.qualified (Word.textD table) name) (p.shownAlias label))
  | computed inner label, p, r =>
    r.pushFragment (Fragment.aliased · (p.shownAlias label))
      (·.pushOperand inner (renderTo inner .reference))
  | constant v, _, r => r.pushConstant v
  | binary left op right, _, r =>
    r.pushInfix op (·.pushOperand left (renderTo left .reference))
      (·.pushOperand right (renderTo right .reference))
  | join kind left right condition, _, r =>
    let r := r.pushSource left (renderTo left .reference)
    let r := (r.push (" " ++ kind.keyword ++ " ")).pushSource right (renderTo right .reference)
    (r.push " ON ").pushOperand condition (renderTo condition .reference)
  | list items, p, r => renderItemsTo items p.ofItems r
  | select columns source condition grouping having ordering, _, r =>
    let r := (r.push "SELECT ").pushFragment Renderer.columnsText (renderTo columns .selectList)
    let r := r.pushClause "FROM" source (·.pushSource source (renderTo source .reference))
    let r := r.pushClause "WHERE" condition (renderTo condition .reference)
    let r := r.pushClause "GROUP BY" grouping (renderTo grouping .reference)
    let r := r.pushClause "HAVING" having (renderTo having .reference)
    r.pushClause "ORDER BY" ordering (renderTo ordering .reference)
  | keyFilter filter, _, r => r.pushKey filter.key

def renderItemsTo : List Expr → Position → Renderer → Renderer
  | [], _, r => r
  | [e], p, r => renderTo e p r
  | e :: e' :: es, p, r => renderItemsTo (e' :: es) p ((renderTo e p r).push ", ")
end

def render (d : Dialect) (mode : Mode) (e : Expr) : Renderer :=
  renderTo e .reference (.start d mode)

def literalSql (d : Dialect) (e : Expr) : String := (e.render d .literal).sql

/-- The text with placeholders, and the values of a fresh sink. -/
def boundSql (d : Dialect) (e : Expr) : String × List Value :=
  let r := e.render d (.bind [])
  (r.sql, r.mode.sink)

end SqlExpr.Expr
