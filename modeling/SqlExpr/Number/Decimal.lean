import SqlExpr.Number.Binary64
import SqlExpr.Number.Scientific

/-! # Decimal numbers

A decimal is a whole coefficient of any size and a scale of 64 bits: `coefficient * 10 ^ -scale`. Two
decimals are equal as numbers when their forms without trailing zeros agree.
-/
namespace SqlExpr

structure Decimal where
  coefficient : Int
  scale : Int64
deriving DecidableEq

namespace Decimal
open Text

def isNegative (d : Decimal) : Bool := d.coefficient < 0

/-- The number without its sign; the scale of zero is zero. -/
def magnitude (d : Decimal) : Scientific :=
  if d.coefficient = 0 then ⟨0, 0⟩ else ⟨d.coefficient.natAbs, -d.scale.toInt⟩

def equal (a b : Decimal) : Bool :=
  a.isNegative == b.isNegative && a.magnitude.trim == b.magnitude.trim

/-- Scientific with `E` when more than five zeros would stand behind the point, with `e+` behind all
digits when more than fifteen would end the number, else positional with the scale kept. -/
def magnitudeText (s : Scientific) : List Char :=
  if 5 < -s.exponent - (digits s.digits).length then s.mantissa ++ 'E' :: signed s.leading
  else if 15 < s.exponent then digits s.digits ++ 'e' :: '+' :: signed s.exponent
  else s.positional

def chars (d : Decimal) : List Char :=
  (if d.isNegative then ['-'] else []) ++ magnitudeText d.magnitude

def text (d : Decimal) : String := String.ofList d.chars

def ofInt (i : Int) : Decimal := ⟨i, 0⟩

/-- `n * 2 ^ -e` with at most `fuel` common factors of two taken out. -/
def reduceHalves : Nat → Nat → Nat → Nat × Nat
  | 0, n, e => (n, e)
  | fuel + 1, n, e => if e ≠ 0 ∧ n % 2 = 0 then reduceHalves fuel (n / 2) (e - 1) else (n, e)

/-- The exact value of a finite number. Each halving takes one decimal place; a subnormal number has
the places of the least one, and any other number no more places than it needs. -/
def ofBinary64 (x : Binary64) : Decimal :=
  let fuel := if x.isSubnormal then 0 else 53
  let (n, halvings) := reduceHalves fuel x.significand (-x.exponent).toNat
  let coefficient : Nat := n * Nat.pow 5 halvings * Nat.pow 2 x.exponent.toNat
  if x.isZero then ⟨0, 0⟩
  else ⟨if x.isNegative then -coefficient else coefficient, Int64.ofNat halvings⟩

end Decimal

end SqlExpr
