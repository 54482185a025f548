import SqlExpr.Expr.Basic

/-! # The tables of an expression

The tables that qualify columns are collected in one walk, depth first and from left to right, into a
list that names each table once. Names that the list held before stay in front.
-/
namespace SqlExpr

def addName (known : List String) (name : String) : List String :=
  if name ∈ known then known else known ++ [name]

def addQualifier (known : List String) (table : Option Word) : List String :=
  match table with
  | some w => addName known w.text
  | none => known

namespace Expr

mutual
def addTables : Expr → List String → List String
  | empty, known => known
  | raw _, known => known
  | column table _ _, known => addQualifier known table
  | computed inner _, known => addTables inner known
  | constant _, known => known
  | binary left _ right, known => addTables right (addTables left known)
  | join _ left right condition, known =>
    addTables condition (addTables right (addTables left known))
  | list items, known => addItemTables items known
  | select columns source condition grouping having ordering, known =>
    let known := addTables source (addTables columns known)
    let known := addTables grouping (addTables condition known)
    addTables ordering (addTables having known)
  | keyFilter f, known =>
    f.key.parts.foldl (fun known _ => addQualifier known (Word.ofText? f.key.table)) known

def addItemTables : List Expr → List String → List String
  | [], known => known
  | e :: es, known => addItemTables es (addTables e known)
end

def tables (e : Expr) : List String := e.addTables []

end Expr

end SqlExpr
