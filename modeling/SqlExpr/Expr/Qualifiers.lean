import SqlExpr.Expr.Tables

/-! # The qualifiers of an expression

The tables that qualify columns, from left to right and with repetitions. Collecting the tables of an
expression is adding its qualifiers one by one.
-/
namespace SqlExpr

def qualifier (table : Option Word) : List String := table.toList.map Word.text

/-- A filter by key names its table once for each part. -/
def KeyFilter.qualifiers (f : KeyFilter) : List String :=
  f.key.parts.flatMap fun _ => qualifier (Word.ofText? f.key.table)

namespace Expr

mutual
def qualifiers : Expr → List String
  | empty => []
  | raw _ => []
  | column table _ _ => qualifier table
  | computed inner _ => qualifiers inner
  | constant _ => []
  | binary left _ right => qualifiers left ++ qualifiers right
  | join _ left right condition =>
    qualifiers left ++ qualifiers right ++ qualifiers condition
  | list items => itemQualifiers items
  | select columns source condition grouping having ordering =>
    qualifiers columns ++ qualifiers source ++ qualifiers condition ++ qualifiers grouping ++
      qualifiers having ++ qualifiers ordering
  | keyFilter f => f.qualifiers

def itemQualifiers : List Expr → List String
  | [] => []
  | e :: es => qualifiers e ++ itemQualifiers es
end

theorem addQualifier_eq_foldl (known : List String) (table : Option Word) :
    addQualifier known table = (qualifier table).foldl addName known := by
  cases table <;> rfl

theorem foldl_addQualifier_eq_foldl (parts : List (String × Value)) (table : Option Word)
    (known : List String) :
    parts.foldl (fun known _ => addQualifier known table) known =
      (parts.flatMap fun _ => qualifier table).foldl addName known := by
  induction parts generalizing known with
  | nil => rfl
  | cons part parts ih =>
    rw [List.foldl_cons, ih, addQualifier_eq_foldl, List.flatMap_cons, List.foldl_append]

mutual
theorem addTables_eq_foldl : ∀ (e : Expr) (known : List String),
    e.addTables known = e.qualifiers.foldl addName known
  | empty, known => by simp [addTables, qualifiers]
  | raw _, known => by simp [addTables, qualifiers]
  | column table _ _, known => by simp [addTables, qualifiers, addQualifier_eq_foldl]
  | computed inner _, known => by simp [addTables, qualifiers, addTables_eq_foldl inner]
  | constant _, known => by simp [addTables, qualifiers]
  | binary left _ right, known => by
    simp [addTables, qualifiers, addTables_eq_foldl left, addTables_eq_foldl right]
  | join _ left right condition, known => by
    simp [addTables, qualifiers, addTables_eq_foldl left, addTables_eq_foldl right,
      addTables_eq_foldl condition]
  | list items, known => by simp [addTables, qualifiers, addItemTables_eq_foldl items]
  | select columns source condition grouping having ordering, known => by
    simp [addTables, qualifiers, addTables_eq_foldl columns, addTables_eq_foldl source,
      addTables_eq_foldl condition, addTables_eq_foldl grouping, addTables_eq_foldl having,
      addTables_eq_foldl ordering]
  | keyFilter f, known => by
    simp only [addTables, qualifiers, KeyFilter.qualifiers]
    exact foldl_addQualifier_eq_foldl _ _ _

theorem addItemTables_eq_foldl : ∀ (es : List Expr) (known : List String),
    addItemTables es known = (itemQualifiers es).foldl addName known
  | [], known => by simp [addItemTables, itemQualifiers]
  | e :: es, known => by
    simp [addItemTables, itemQualifiers, addTables_eq_foldl e, addItemTables_eq_foldl es]
end

end Expr

end SqlExpr
