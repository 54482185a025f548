import SqlExpr.Json.Reader
import SqlExpr.Number.Binary64
import SqlExpr.Text.Digits

/-! # JSON numbers

A number without fraction and exponent is a whole number when it fits 64 bits, with the sign that it
has. Every other one, `-0` included, is a double precision number: the digits make up a significand
of 64 bits, digits that no longer fit count only by their place, and the significand is multiplied
with, or divided by, the double of a power of ten. The result is thus not always the nearest double.
-/
namespace SqlExpr.Json

inductive Number where
  | natural (n : Nat)
  | negative (n : Nat)
  | float (x : Binary64)

namespace Number
open Reader

def greatestNatural : Nat := Nat.pow 2 64 - 1

def greatestExponent : Nat := Nat.pow 2 31 - 1

/-- Reads digits onto `n` as long as the number stays within the limit. Gives the number and the count
of the digits read. -/
def gather (limit : Nat) : Nat → List Char → Nat × Nat
  | n, c :: cs =>
    if c.isDigit ∧ 10 * n + (c.toNat - 48) ≤ limit then
      let (m, count) := gather limit (10 * n + (c.toNat - 48)) cs
      (m, count + 1)
    else (n, 0)
  | n, [] => (n, 0)

def gathered (limit n : Nat) : Reader (Nat × Nat) := do
  let (m, count) := gather limit n (← rest)
  advance count
  return (m, count)

def skipDigits : Reader Nat := do
  let count := ((← rest).takeWhile Char.isDigit).length
  advance count
  return count

def divided : Nat → Binary64 → Nat → Binary64
  | 0, x, _ => x
  | fuel + 1, x, n =>
    if n ≤ 308 then x.div (.powerOfTen n)
    else if x.isZero then x
    else divided fuel (x.div (.powerOfTen 308)) (n - 308)

/-- `significand * 10 ^ e`, if it is in range. Three divisions bring any significand to zero. -/
def scaled? (significand : Nat) (e : Int) : Option Binary64 :=
  let x := Binary64.ofNat significand
  if e < 0 then some (divided 4 x e.natAbs)
  else if e ≤ 308 then
    let y := x.mul (.powerOfTen e.toNat)
    if y.isInfinite then none else some y
  else if x.isZero then some x else none

def signedFloat (negative : Bool) (x : Binary64) : Number :=
  .float (if negative then x.negate else x)

def scaled (negative : Bool) (significand : Nat) (e : Int) : Reader Number :=
  match scaled? significand e with
  | some x => return signedFloat negative x
  | none => fail .numberOutOfRange

/-- The exponent behind its mark. One that is too large makes zero, or an error if the number would be
large. -/
def readExponent (negative : Bool) (significand : Nat) (e : Int) : Reader Number := do
  advance 1
  let sign ← peek
  if sign = some '+' ∨ sign = some '-' then advance 1
  match ← peek with
  | none => fail .endOfValue
  | some c =>
    if !c.isDigit then failHere .invalidNumber
    else
      let (n, _) ← gathered greatestExponent 0
      if (← peek).any Char.isDigit then
        advance 1
        if significand ≠ 0 ∧ sign ≠ some '-' then fail .numberOutOfRange
        else
          let _ ← skipDigits
          return signedFloat negative (.zero false)
      else scaled negative significand (if sign = some '-' then e - n else e + n)

def isExponentMark (c : Char) : Bool := c == 'e' || c == 'E'

def readFraction (negative : Bool) (significand : Nat) (e : Int) : Reader Number := do
  advance 1
  let (significand, places) ← gathered greatestNatural significand
  let ignored ← skipDigits
  if places + ignored = 0 then
    if (← peek).isSome then failHere .invalidNumber else fail .endOfValue
  else if (← peek).any isExponentMark then readExponent negative significand (e - places)
  else scaled negative significand (e - places)

/-- A number without fraction and exponent, with the count of the digits that did not fit. -/
def whole (negative : Bool) (n ignored : Nat) : Reader Number :=
  if ignored ≠ 0 then scaled negative n ignored
  else if !negative then return .natural n
  else if 1 ≤ n ∧ n ≤ Nat.pow 2 63 then return .negative n
  else return signedFloat true (.ofNat n)

def readUnsigned (negative : Bool) : Reader Number := do
  match ← peek with
  | none => fail .endOfValue
  | some c =>
    if !c.isDigit then failHere .invalidNumber
    else
      if c = '0' then
        advance 1
        if (← peek).any Char.isDigit then failHere .invalidNumber
      let (n, _) ← gathered greatestNatural 0
      let ignored ← skipDigits
      match ← peek with
      | some '.' => readFraction negative n ignored
      | some d =>
        if isExponentMark d then readExponent negative n ignored else whole negative n ignored
      | none => whole negative n ignored

def read : Reader Number := do
  if (← peek) = some '-' then
    advance 1
    readUnsigned true
  else readUnsigned false

/-! ## Numbers passed over -/

def skipExponent : Reader Unit := do
  advance 1
  let sign ← peek
  if sign = some '+' ∨ sign = some '-' then advance 1
  if (← skipDigits) = 0 then failHere .invalidNumber

def skipFraction : Reader Unit := do
  advance 1
  if (← skipDigits) = 0 then failHere .invalidNumber
  else if (← peek).any isExponentMark then skipExponent

def skipUnsigned : Reader Unit := do
  match ← peek with
  | some '0' =>
    advance 1
    if (← peek).any Char.isDigit then failHere .invalidNumber
  | _ => if (← skipDigits) = 0 then failHere .invalidNumber
  match ← peek with
  | some '.' => skipFraction
  | some c => if isExponentMark c then skipExponent
  | none => return

end Number

end SqlExpr.Json
