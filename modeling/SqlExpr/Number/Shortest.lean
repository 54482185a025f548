import SqlExpr.Number.Binary64
import SqlExpr.Number.Scientific

/-! # The shortest decimal that reads back

A positive finite number `v` is read back from every decimal strictly between the middles of the gaps
beside it, and from these middles themselves when its significand is even. Among the decimals read
back as `v` the shortest has the fewest digits and is, of those, the nearest to `v`; which of two
equally near ones is taken is a parameter.

On the grid of the multiples of a power of ten the decimals nearest to `v` are its two neighbours, so
that it is enough to test these, from the coarsest grid on which `v` has a digit to the finest.
-/
namespace SqlExpr.Shortest
open Text

inductive TieRule where
  | upward
  | toEven
deriving DecidableEq

/-- A number with the middles of the gaps beside it, all three as fractions of one denominator. -/
structure Gap where
  low : Nat
  value : Nat
  high : Nat
  den : Nat
  closed : Bool

def Gap.ofBinary64 (x : Binary64) : Gap :=
  let scale := Nat.pow 2 x.exponent.toNat
  let m := 4 * x.significand
  { low := (if x.startsBinade then m - 1 else m - 2) * scale
    value := m * scale
    high := (m + 2) * scale
    den := 4 * Nat.pow 2 (-x.exponent).toNat
    closed := x.significand % 2 == 0 }

def Gap.inUnits (g : Gap) (e : Int) : Gap :=
  let up := Nat.pow 10 (-e).toNat
  let down := Nat.pow 10 e.toNat
  { g with low := g.low * up, value := g.value * up, high := g.high * up, den := g.den * down }

/-- The natural number `n` is read back as the value. -/
def Gap.holds (g : Gap) (n : Nat) : Bool :=
  if g.closed then g.low ≤ n * g.den && n * g.den ≤ g.high
  else g.low < n * g.den && n * g.den < g.high

/-- The neighbour of the value on the grid of natural numbers that is read back and nearest. -/
def Gap.neighbour? (tie : TieRule) (g : Gap) : Option Nat :=
  let n := g.value / g.den
  let below := g.value % g.den
  let above := g.den - below
  if g.holds n then
    if g.holds (n + 1) then
      if below < above then some n
      else if above < below then some (n + 1)
      else match tie with
        | .upward => some (n + 1)
        | .toEven => some (if n % 2 = 0 then n else n + 1)
    else some n
  else if g.holds (n + 1) then some (n + 1) else none

def leadingExponent (num den : Nat) : Int :=
  if den ≤ num then (digits (num / den)).length - 1
  else -((digits ((den + num - 1) / num - 1)).length : Int)

/-- The first grid with a hit, from the one of `10 ^ e` on through `fuel` finer ones. -/
def search (tie : TieRule) (g : Gap) : Nat → Int → Scientific
  | 0, e => ⟨(g.inUnits e).value / (g.inUnits e).den, e⟩
  | fuel + 1, e =>
    match (g.inUnits e).neighbour? tie with
    | some n => ⟨n, e⟩
    | none => search tie g fuel (e - 1)

/-- The shortest decimal of a finite number that is not zero, sign apart. Seventeen digits always
suffice. -/
def ofBinary64 (tie : TieRule) (x : Binary64) : Scientific :=
  let g := Gap.ofBinary64 x
  (search tie g 17 (leadingExponent g.value g.den)).trim

end SqlExpr.Shortest
