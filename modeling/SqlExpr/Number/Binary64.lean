/-! # Double precision numbers

A number of the IEEE 754 format binary64 is its word of 64 bits: a sign, eleven bits of exponent and
52 bits of fraction. A finite number is a natural number times a power of two, and every positive
ratio has a nearest number, the one with the even significand where two are equally near. All is
exact arithmetic on natural numbers.
-/
namespace SqlExpr

structure Binary64 where
  bits : UInt64
deriving DecidableEq

namespace Binary64

def isNegative (x : Binary64) : Bool := Nat.pow 2 63 ≤ x.bits.toNat

/-- The bits other than the sign. -/
def magnitude (x : Binary64) : Nat := x.bits.toNat % Nat.pow 2 63

def exponentField (x : Binary64) : Nat := x.magnitude / Nat.pow 2 52

def fractionField (x : Binary64) : Nat := x.magnitude % Nat.pow 2 52

def isFinite (x : Binary64) : Bool := x.exponentField != 2047

def isNaN (x : Binary64) : Bool := x.exponentField == 2047 && x.fractionField != 0

def isZero (x : Binary64) : Bool := x.magnitude == 0

def isSubnormal (x : Binary64) : Bool := x.exponentField == 0 && x.fractionField != 0

/-- A finite number is `significand * 2 ^ exponent`, sign apart. -/
def significand (x : Binary64) : Nat :=
  if x.exponentField = 0 then x.fractionField else Nat.pow 2 52 + x.fractionField

def exponent (x : Binary64) : Int :=
  if x.exponentField = 0 then -1074 else x.exponentField - 1075

/-- The significand is the least of its binade, so that the next smaller number is half as far away
as the next larger one. -/
def startsBinade (x : Binary64) : Bool := x.fractionField == 0 && 1 < x.exponentField

/-- Equality of numbers: no NaN equals anything, and the two zeros are equal. -/
def equal (x y : Binary64) : Bool :=
  !x.isNaN && !y.isNaN && (x.bits == y.bits || (x.isZero && y.isZero))

def infinityMagnitude : Nat := 2047 * Nat.pow 2 52

def ofParts (negative : Bool) (magnitude : Nat) : Binary64 :=
  ⟨UInt64.ofNat ((if negative then Nat.pow 2 63 else 0) + magnitude)⟩

/-- The quotient rounded to the nearest natural number, a half to the even one. -/
def roundedQuotient (num den : Nat) : Nat :=
  let q := num / den
  let r := num % den
  if 2 * r < den ∨ (2 * r = den ∧ q % 2 = 0) then q else q + 1

/-- The power of two whose multiples are the numbers around `num / den`. -/
def unitExponent (num den : Nat) : Int :=
  let k : Int := (num.log2 : Int) - den.log2
  let fits := den * Nat.pow 2 k.toNat ≤ num * Nat.pow 2 (-k).toNat
  max (-1074) (if fits then k - 52 else k - 53)

/-- The bits, sign apart, of the number nearest to `num / den`; from the middle of the last gap
upwards that is infinity. -/
def nearestMagnitude (num den : Nat) : Nat :=
  if num = 0 then 0
  else
    let e := unitExponent num den
    let q := roundedQuotient (num * Nat.pow 2 (-e).toNat) (den * Nat.pow 2 e.toNat)
    min infinityMagnitude ((e + 1074).toNat * Nat.pow 2 52 + q)

def ofRatio (negative : Bool) (num den : Nat) : Binary64 :=
  ofParts negative (nearestMagnitude num den)

def isInfinite (x : Binary64) : Bool := x.magnitude == infinityMagnitude

/-- The ratio that a finite number is, sign apart. -/
def ratio (x : Binary64) : Nat × Nat :=
  (x.significand * Nat.pow 2 x.exponent.toNat, Nat.pow 2 (-x.exponent).toNat)

def mul (x y : Binary64) : Binary64 :=
  ofRatio false (x.ratio.1 * y.ratio.1) (x.ratio.2 * y.ratio.2)

def div (x y : Binary64) : Binary64 :=
  ofRatio false (x.ratio.1 * y.ratio.2) (x.ratio.2 * y.ratio.1)

def powerOfTen (n : Nat) : Binary64 := ofRatio false (Nat.pow 10 n) 1

def ofNat (n : Nat) : Binary64 := ofRatio false n 1

def ofInt (i : Int) : Binary64 := ofRatio (i < 0) i.natAbs 1

def zero (negative : Bool) : Binary64 := ofParts negative 0

def negate (x : Binary64) : Binary64 := ofParts (!x.isNegative) x.magnitude

end Binary64

end SqlExpr
