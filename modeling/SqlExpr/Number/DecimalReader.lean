import SqlExpr.Number.Decimal

/-! # Reading decimal numbers

A text of a decimal has a base and, behind the first `e` or `E`, an exponent. The point may stand
anywhere in the base, also at either end, and the digits on both sides of it are read as one whole
number, whose sign comes first. Underscores between digits do not count.
-/
namespace SqlExpr.Decimal
open Text

def digitsNat? (cs : List Char) : Option Nat :=
  if !cs.isEmpty && cs.all Char.isDigit then some (digitsValue cs) else none

def exponent? : List Char → Option Int
  | '-' :: cs => (digitsNat? cs).map fun n => -(n : Int)
  | '+' :: cs => (digitsNat? cs).map fun n => (n : Int)
  | cs => (digitsNat? cs).map fun n => (n : Int)

/-- One or more decimal digits, with underscores anywhere but at the start. -/
def groupedNat? (cs : List Char) : Option Nat :=
  if cs.head? == some '_' then none
  else if cs.all fun c => c.isDigit || c == '_' then
    digitsNat? (cs.filter Char.isDigit)
  else none

def coefficient? : List Char → Option Int
  | '-' :: cs => (groupedNat? cs).map fun n => -(n : Int)
  | '+' :: cs => (groupedNat? cs).map fun n => (n : Int)
  | cs => (groupedNat? cs).map fun n => (n : Int)

/-- The digits of a base without its point, and the number of digits behind the point. -/
def withoutPoint (base : List Char) : List Char × Nat :=
  let before := base.takeWhile (· != '.')
  match base.dropWhile (· != '.') with
  | [] => (before, 0)
  | _ :: behind => (before ++ behind, (behind.filter (· != '_')).length)

def isExponentMark (c : Char) : Bool := c == 'e' || c == 'E'

/-- A scale must fit its 64 bits. -/
def ofParts? (coefficient scale : Int) : Option Decimal :=
  if -(Nat.pow 2 63 : Int) ≤ scale ∧ scale < Nat.pow 2 63 then some ⟨coefficient, Int64.ofInt scale⟩ else none

def ofChars? (cs : List Char) : Option Decimal := do
  let exponent ← match cs.dropWhile (!isExponentMark ·) with
    | [] => some 0
    | _ :: es => exponent? es
  let (body, places) := withoutPoint (cs.takeWhile (!isExponentMark ·))
  let coefficient ← coefficient? body
  ofParts? coefficient (places - exponent)

def ofText? (s : String) : Option Decimal := ofChars? s.toList

end SqlExpr.Decimal
