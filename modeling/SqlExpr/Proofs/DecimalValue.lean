import Mathlib.Algebra.Order.Field.Power
import Mathlib.Algebra.Order.Field.Rat
import Mathlib.Tactic.Linarith
import Mathlib.Tactic.NormNum
import Mathlib.Tactic.Ring
import SqlExpr.Proofs.Numerals
import SqlExpr.Number.Decimal

/-! # The number of a decimal

A decimal stands for a rational number, and two decimals are equal exactly when they stand for the same
one, whatever their scales. For taking zeros off the end of the digits keeps the number, and leaves one
form for each number.
-/
namespace SqlExpr
open Text

theorem ten_zpow_pos (e : Int) : (0 : ℚ) < 10 ^ e := zpow_pos (by norm_num) e

namespace Scientific

def toRat (s : Scientific) : ℚ := s.digits * (10 : ℚ) ^ s.exponent

theorem toRat_eq_zero_iff {s : Scientific} : s.toRat = 0 ↔ s.digits = 0 := by
  simp [toRat, zpow_ne_zero]

/-- A zero at the end of the digits and a step of the exponent are the same. -/
theorem toRat_shift (n : Nat) (e : Int) (k : Nat) :
    toRat ⟨n * 10 ^ k, e⟩ = toRat ⟨n, e + k⟩ := by
  have h : (10 : ℚ) ^ (e + k) = 10 ^ e * 10 ^ k := by rw [zpow_add₀ (by norm_num), zpow_natCast]
  simp only [toRat, h]
  push_cast
  ring

theorem toRat_trimUpTo (fuel : Nat) (s : Scientific) : (trimUpTo fuel s).toRat = s.toRat := by
  induction fuel generalizing s with
  | zero => rfl
  | succ fuel ih =>
    rw [trimUpTo]
    split_ifs with h
    · have hs := toRat_shift (s.digits / 10) s.exponent 1
      have hd : s.digits / 10 * 10 ^ 1 = s.digits := by omega
      rw [hd] at hs
      rw [ih]
      exact hs.symm
    · rfl

theorem toRat_trim (s : Scientific) : s.trim.toRat = s.toRat := by
  unfold trim
  split_ifs with h
  · simp [toRat, h]
  · exact toRat_trimUpTo _ s

/-- As many rounds as there are digits take off all zeros. -/
theorem digits_trimUpTo {fuel : Nat} {s : Scientific} (hs : s.digits ≠ 0) (h : s.digits < 10 ^ fuel) :
    (trimUpTo fuel s).digits % 10 ≠ 0 := by
  induction fuel generalizing s with
  | zero => omega
  | succ fuel ih =>
    rw [trimUpTo]
    split_ifs with hd
    · exact ih (by simp only; omega) (by simp only [pow_succ] at h ⊢; omega)
    · exact hd

theorem digits_trim {s : Scientific} (hs : s.digits ≠ 0) : s.trim.digits % 10 ≠ 0 := by
  rw [trim, if_neg hs]
  exact digits_trimUpTo hs ((length_digits_le_iff (length_digits_pos _)).mp (Nat.le_refl _))

/-- The form without zeros at the end is determined by its number. -/
theorem eq_of_toRat_eq {s t : Scientific} (hs : s.digits % 10 ≠ 0) (ht : t.digits % 10 ≠ 0)
    (h : s.toRat = t.toRat) : s = t := by
  -- With a greater exponent the other one's digits would end in a zero.
  have key : ∀ {s t : Scientific}, s.digits % 10 ≠ 0 → s.toRat = t.toRat → s.exponent ≤ t.exponent →
      s = t := by
    intro s t hs h hle
    obtain ⟨k, hk⟩ := Int.le.dest hle
    have hv := toRat_shift t.digits s.exponent k
    rw [hk] at hv
    have hd : s.digits = t.digits * 10 ^ k := by
      have he := h.trans hv.symm
      simp only [toRat] at he
      exact_mod_cast mul_right_cancel₀ (ten_zpow_pos _).ne' he
    cases k with
    | zero =>
      obtain ⟨n, e⟩ := s
      obtain ⟨m, f⟩ := t
      simp_all
    | succ k => exact absurd (by rw [hd, pow_succ, ← mul_assoc]; omega) hs
  rcases le_total s.exponent t.exponent with hle | hle
  · exact key hs h hle
  · exact (key ht h.symm hle).symm

theorem trim_eq_iff {s t : Scientific} : s.trim = t.trim ↔ s.toRat = t.toRat := by
  constructor
  · intro h
    rw [← toRat_trim s, h, toRat_trim]
  · intro h
    by_cases hs : s.digits = 0
    · have ht : t.digits = 0 := by rw [← toRat_eq_zero_iff, ← h, toRat_eq_zero_iff, hs]
      rw [trim, trim, if_pos hs, if_pos ht]
    · have ht : t.digits ≠ 0 := by rwa [Ne, ← toRat_eq_zero_iff, ← h, toRat_eq_zero_iff]
      exact eq_of_toRat_eq (digits_trim hs) (digits_trim ht) (by rw [toRat_trim, toRat_trim, h])

end Scientific

namespace Decimal

def toRat (d : Decimal) : ℚ := d.coefficient * (10 : ℚ) ^ (-d.scale.toInt)

theorem toRat_magnitude (d : Decimal) : d.magnitude.toRat = |d.toRat| := by
  unfold magnitude toRat
  split_ifs with h
  · simp [Scientific.toRat, h]
  · rw [abs_mul, abs_of_pos (ten_zpow_pos _), Scientific.toRat]
    simp [Nat.cast_natAbs]

theorem isNegative_iff (d : Decimal) : d.isNegative = true ↔ d.toRat < 0 := by
  rw [isNegative, decide_eq_true_eq, ← not_le, ← not_le, toRat,
    mul_nonneg_iff_of_pos_right (ten_zpow_pos _), Int.cast_nonneg_iff]

theorem equal_iff {a b : Decimal} : a.equal b = true ↔ a.toRat = b.toRat := by
  simp only [equal, Bool.and_eq_true, beq_iff_eq, Scientific.trim_eq_iff, toRat_magnitude]
  constructor
  · rintro ⟨hn, ha⟩
    have hs : a.toRat < 0 ↔ b.toRat < 0 := by rw [← isNegative_iff, ← isNegative_iff, hn]
    rcases abs_eq_abs.mp ha with h | h
    · exact h
    · by_cases ha : a.toRat < 0
      · linarith [hs.mp ha]
      · linarith [not_lt.mp ha, not_lt.mp (mt hs.mpr ha)]
  · intro h
    refine ⟨?_, by rw [h]⟩
    rw [Bool.eq_iff_iff, isNegative_iff, isNegative_iff, h]

end Decimal

end SqlExpr
