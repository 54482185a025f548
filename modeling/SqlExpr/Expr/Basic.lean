import SqlExpr.Key
import SqlExpr.Text.Word

/-! # Expression trees

An expression is nothing at all, raw SQL text, or a node. The tree fixes what an expression says; how
it is spelled is left to rendering. Raw texts, qualifiers and aliases are never empty, and a key
filter always has a part, by the types of these nodes.
-/
namespace SqlExpr

inductive JoinKind where
  | plain
  | inner
  | left
  | right
  | full
deriving DecidableEq

def JoinKind.keyword : JoinKind → String
  | plain => "JOIN"
  | inner => "INNER JOIN"
  | left => "LEFT JOIN"
  | right => "RIGHT JOIN"
  | full => "FULL OUTER JOIN"

structure KeyFilter where
  key : Key
  parts_ne_nil : key.parts ≠ []
deriving DecidableEq

inductive Expr where
  /-- Nothing was given. -/
  | empty
  /-- Text without structure. -/
  | raw (sql : Word)
  /-- A column by its name. The alias counts only in a select list. -/
  | column (table : Option Word) (name : String) (label : Option Word)
  /-- A column that another expression computes. -/
  | computed (inner : Expr) (label : Option Word)
  | constant (value : Value)
  /-- An infix operator, its text passed on as it is. -/
  | binary (left : Expr) (op : String) (right : Expr)
  | join (kind : JoinKind) (left right condition : Expr)
  /-- Select lists, lists of values and tuples. -/
  | list (items : List Expr)
  | select (columns source condition grouping having ordering : Expr)
  | keyFilter (filter : KeyFilter)

namespace Expr

instance : Inhabited Expr := ⟨empty⟩

/-- Raw text; an empty text gives the empty expression. -/
def ofText (s : String) : Expr :=
  match Word.ofText? s with
  | some w => raw w
  | none => empty

/-- A column of a table; an empty table does not qualify it. -/
def qualified (table name : String) : Expr := column (Word.ofText? table) name none

def named (name : String) : Expr := column none name none

def ofNames (names : List String) : Expr := list (names.map ofText)

def isEmpty : Expr → Bool
  | empty => true
  | _ => false

def isConstant : Expr → Bool
  | constant _ => true
  | _ => false

def isSelect : Expr → Bool
  | select .. => true
  | _ => false

@[simp] theorem ofText_empty : ofText "" = empty := rfl

@[simp] theorem ofText_text (w : Word) : ofText w.text = raw w := by simp [ofText]

end Expr

end SqlExpr
