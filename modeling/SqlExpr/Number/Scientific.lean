import SqlExpr.Text.Digits

/-! # Digits and an exponent

The number `digits * 10 ^ exponent`, its positional and scientific notation with all digits kept, and
its form without zeros at the end of the digits, which is the same for equal numbers.
-/
namespace SqlExpr

structure Scientific where
  digits : Nat
  exponent : Int
deriving DecidableEq

namespace Scientific

def zeros (n : Nat) : List Char := List.replicate n '0'

/-- No point when there are no decimal places, and a zero in front of a leading point. -/
def positional (s : Scientific) : List Char :=
  let ds := Text.digits s.digits
  let places := (-s.exponent).toNat
  if places = 0 then ds ++ zeros s.exponent.toNat
  else if places < ds.length then
    ds.take (ds.length - places) ++ '.' :: ds.drop (ds.length - places)
  else '0' :: '.' :: zeros (places - ds.length) ++ ds

def mantissa (s : Scientific) : List Char :=
  match Text.digits s.digits with
  | d :: d' :: ds => d :: '.' :: d' :: ds
  | ds => ds

def leading (s : Scientific) : Int := s.exponent + (Text.digits s.digits).length - 1

/-- Moves at most `fuel` zeros from the end of the digits into the exponent. -/
def trimUpTo : Nat → Scientific → Scientific
  | 0, s => s
  | fuel + 1, s =>
    if s.digits % 10 = 0 then trimUpTo fuel ⟨s.digits / 10, s.exponent + 1⟩ else s

def trim (s : Scientific) : Scientific :=
  if s.digits = 0 then ⟨0, 0⟩ else trimUpTo (Text.digits s.digits).length s

end Scientific

end SqlExpr
