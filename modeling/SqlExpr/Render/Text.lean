import SqlExpr.Expr.Constants
import SqlExpr.Render.Renderer

/-! # The text of an expression as a function

The text of an expression is put together from the texts of its parts. All that it depends on besides
is how the value at each place of the sink is spelled, and the place of the first one.
-/
namespace SqlExpr

/-- The text that stands for a value at its place in the sink. -/
abbrev Spelling := Nat → Value → String

def Mode.spelling (d : Dialect) : Mode → Spelling
  | literal => fun _ v => d.literal v
  | bind _ => fun index _ => d.placeholder index

namespace Expr

def operandText (e : Expr) (s : String) : String := if e.isConstant then s else Fragment.operand s

def infixText (op left right : String) : String := "(" ++ left ++ (" " ++ op ++ " ") ++ right ++ ")"

def clauseTextOf (keyword : String) (e : Expr) (s : String) : String :=
  if e.isEmpty then "" else Renderer.clauseText keyword s

def partText (spell : Spelling) (table : String) (n : Nat) (part : String × Value) : String :=
  infixText "=" (Fragment.operand (Fragment.qualified table part.1)) (spell n part.2)

def conjunctionText (spell : Spelling) (table : String) :
    String → Nat → List (String × Value) → String
  | s, _, [] => s
  | s, n, part :: parts =>
    conjunctionText spell table
      (infixText "AND" (Fragment.operand s) (Fragment.operand (partText spell table n part)))
      (n + 1) parts

def keyText (spell : Spelling) (n : Nat) (k : Key) : String :=
  match k.parts with
  | [] => ""
  | part :: parts => conjunctionText spell k.table (partText spell k.table n part) (n + 1) parts

mutual
/-- The text at a position, the first constant being at place `n`. -/
def textAt (spell : Spelling) : Expr → Position → Nat → String
  | empty, _, _ => ""
  | raw sql, _, _ => sql.text
  | column table name label, p, _ =>
    Fragment.aliased (Fragment.qualified (Word.textD table) name) (p.shownAlias label)
  | computed inner label, p, n =>
    Fragment.aliased (operandText inner (textAt spell inner .reference n)) (p.shownAlias label)
  | constant v, _, n => spell n v
  | binary left op right, _, n =>
    infixText op (operandText left (textAt spell left .reference n))
      (operandText right (textAt spell right .reference (n + left.constants.length)))
  | join kind left right condition, _, n =>
    let m := n + left.constants.length
    Renderer.sourceText left (textAt spell left .reference n) ++ (" " ++ kind.keyword ++ " ") ++
      Renderer.sourceText right (textAt spell right .reference m) ++ " ON " ++
      operandText condition (textAt spell condition .reference (m + right.constants.length))
  | list items, p, n => itemsTextAt spell items p.ofItems n
  | select columns source condition grouping having ordering, _, n =>
    let atSource := n + columns.constants.length
    let atCondition := atSource + source.constants.length
    let atGrouping := atCondition + condition.constants.length
    let atHaving := atGrouping + grouping.constants.length
    let atOrdering := atHaving + having.constants.length
    "SELECT " ++ Renderer.columnsText (textAt spell columns .selectList n) ++
      clauseTextOf "FROM" source
        (Renderer.sourceText source (textAt spell source .reference atSource)) ++
      clauseTextOf "WHERE" condition (textAt spell condition .reference atCondition) ++
      clauseTextOf "GROUP BY" grouping (textAt spell grouping .reference atGrouping) ++
      clauseTextOf "HAVING" having (textAt spell having .reference atHaving) ++
      clauseTextOf "ORDER BY" ordering (textAt spell ordering .reference atOrdering)
  | keyFilter f, _, n => keyText spell n f.key

def itemsTextAt (spell : Spelling) : List Expr → Position → Nat → String
  | [], _, _ => ""
  | [e], p, n => textAt spell e p n
  | e :: e' :: es, p, n =>
    textAt spell e p n ++ ", " ++ itemsTextAt spell (e' :: es) p (n + e.constants.length)
end

end Expr

end SqlExpr
