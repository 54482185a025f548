import SqlExpr.Number.Shortest

/-! # Texts of double precision numbers

A finite number is written with its shortest digits. A format says which numbers are written
positionally, whether a whole number keeps a point, how an exponent is marked and which of two
equally near digits is taken.
-/
namespace SqlExpr

structure FloatFormat where
  /-- Holds of the exponents of a first digit that are written positionally. -/
  isPositional : Int → Bool
  /-- A whole number in positional notation ends in `.0`. -/
  keepsPoint : Bool
  /-- An exponent that is not negative has a plus sign. -/
  marksPlus : Bool
  tie : Shortest.TieRule

namespace FloatFormat

/-- Literals are positional from `1e-4` up to below `1e16`. -/
def literal : FloatFormat where
  isPositional e := -4 ≤ e && e < 16
  keepsPoint := true
  marksPlus := false
  tie := .upward

/-- Plain texts are always positional, and whole numbers have no point. -/
def plain : FloatFormat where
  isPositional _ := true
  keepsPoint := false
  marksPlus := false
  tie := .upward

/-- Numbers in JSON texts are positional from `1e-5` up to below `1e16`. -/
def json : FloatFormat where
  isPositional e := -5 ≤ e && e < 16
  keepsPoint := true
  marksPlus := true
  tie := .toEven

def exponentText (f : FloatFormat) (e : Int) : List Char :=
  if e < 0 then 'e' :: Text.signed e
  else if f.marksPlus then 'e' :: '+' :: Text.signed e
  else 'e' :: Text.signed e

def unsignedText (f : FloatFormat) (s : Scientific) : List Char :=
  if f.isPositional s.leading then
    s.positional ++ if f.keepsPoint && 0 ≤ s.exponent then ['.', '0'] else []
  else s.mantissa ++ f.exponentText s.leading

/-- The text of a finite number. The sign of zero is kept. -/
def finiteText (f : FloatFormat) (x : Binary64) : List Char :=
  let s := if x.isZero then ⟨0, 0⟩ else Shortest.ofBinary64 f.tie x
  (if x.isNegative then ['-'] else []) ++ f.unsignedText s

end FloatFormat

namespace Binary64

def nonFiniteText (x : Binary64) : String :=
  if x.isNaN then "NaN" else if x.isNegative then "-inf" else "inf"

def text (f : FloatFormat) (x : Binary64) : String :=
  if x.isFinite then String.ofList (f.finiteText x) else x.nonFiniteText

end Binary64

end SqlExpr
