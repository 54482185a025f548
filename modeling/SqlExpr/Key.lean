import SqlExpr.Value

/-! # Keys of rows

A key names a table and gives the value of each of its key columns, in order.
-/
namespace SqlExpr

structure Key where
  table : String
  parts : List (String × Value)
deriving DecidableEq

namespace Key

def ofTable (table : String) : Key := ⟨table, []⟩

def add (k : Key) (column : String) (value : Value) : Key :=
  { k with parts := k.parts ++ [(column, value)] }

def size (k : Key) : Nat := k.parts.length

def isEmpty (k : Key) : Bool := k.parts.isEmpty

def columns (k : Key) : List String := k.parts.map (·.1)

def values (k : Key) : List Value := k.parts.map (·.2)

/-- As in `orders(id=5, region='west')`. -/
def text (k : Key) : String :=
  k.table ++ "(" ++ ", ".intercalate (k.parts.map fun p => p.1 ++ "=" ++ p.2.literal) ++ ")"

def equal (a b : Key) : Bool :=
  a.table == b.table && a.columns == b.columns &&
    a.values.length == b.values.length && (a.values.zip b.values).all fun p => p.1.equal p.2

@[simp] theorem parts_add (k : Key) (column : String) (value : Value) :
    (k.add column value).parts = k.parts ++ [(column, value)] := rfl

@[simp] theorem table_add (k : Key) (column : String) (value : Value) :
    (k.add column value).table = k.table := rfl

end Key

end SqlExpr
