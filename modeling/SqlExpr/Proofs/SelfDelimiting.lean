import SqlExpr.Proofs.Wrapping

/-! # Literals left bare

A literal is its own operand, whatever its value contains, but for one case: a number in scientific
notation whose exponent has a sign. Which numbers these are is a matter of their size. A float has such an
exponent when its first digit stands more than four places behind the point, a decimal when more than five
zeros stand between the point and its digits or more than fifteen zeros would end it.
-/
namespace SqlExpr
open Text Fragment

theorem IsUnsigned.hasSignedExponent {cs : List Char} (h : IsUnsigned cs) :
    Text.hasSignedExponent cs = false := by
  cases cs with
  | nil => rfl
  | cons c cs =>
    rw [Bool.eq_false_iff]
    intro he
    obtain ⟨s, hs, hsign⟩ := exists_sign_of_hasSignedExponent he
    have hu := h.chars s (List.mem_cons_of_mem c hs)
    rcases hsign with rfl | rfl
    · exact absurd hu (by decide)
    · exact absurd hu (by decide)

theorem Text.hasSignedExponent_sign (negative : Bool) (cs : List Char) :
    hasSignedExponent ((if negative then ['-'] else []) ++ cs) = hasSignedExponent cs := by
  cases negative <;> rfl

theorem hasSignedExponent_exponent {m : List Char} (hm : IsUnsigned m) {mark : Char}
    (hmark : mark = 'e' ∨ mark = 'E') (i : Int) :
    Text.hasSignedExponent (m ++ mark :: signed i) = decide (i < 0) := by
  by_cases hi : i < 0
  · rw [signed, if_pos hi, hasSignedExponent_append m hmark (.inl rfl), decide_eq_true hi]
  · have hu : IsUnsigned (m ++ mark :: digits i.natAbs) := by
      refine hm.append fun c hc => ?_
      rcases List.mem_cons.mp hc with rfl | hc
      · rcases hmark with rfl | rfl <;> rfl
      · exact (IsUnsigned.digits i.natAbs).chars c hc
    rw [signed, if_neg hi, hu.hasSignedExponent, decide_eq_false hi]

/-- The shortest digits of a float as it is written in a literal. -/
def Binary64.literalDigits (x : Binary64) : Scientific :=
  if x.isZero then ⟨0, 0⟩ else Shortest.ofBinary64 FloatFormat.literal.tie x

theorem hasSignedExponent_finiteText (x : Binary64) :
    Text.hasSignedExponent (FloatFormat.literal.finiteText x) =
      decide (x.literalDigits.leading < -4) := by
  have ht : FloatFormat.literal.finiteText x =
      (if x.isNegative then ['-'] else []) ++ FloatFormat.literal.unsignedText x.literalDigits := rfl
  rw [ht, hasSignedExponent_sign]
  generalize x.literalDigits = s
  have hp : FloatFormat.literal.isPositional s.leading = true ↔ -4 ≤ s.leading ∧ s.leading < 16 := by
    simp [FloatFormat.literal]
  unfold FloatFormat.unsignedText
  by_cases h : FloatFormat.literal.isPositional s.leading = true
  · have hu : IsUnsigned (s.positional ++
        if FloatFormat.literal.keepsPoint && 0 ≤ s.exponent then ['.', '0'] else []) := by
      refine (IsUnsigned.positional s).append ?_
      split
      · exact List.all_eq_true.mp rfl
      · simp
    rw [if_pos h, hu.hasSignedExponent, decide_eq_false (by have := hp.mp h; omega)]
  · have he : FloatFormat.literal.exponentText s.leading = 'e' :: signed s.leading := by
      simp [FloatFormat.exponentText, FloatFormat.literal]
    rw [if_neg h, he, hasSignedExponent_exponent (IsUnsigned.mantissa s) (.inl rfl)]
    -- From the sixteenth place upwards the exponent is not negative.
    rw [hp] at h
    rw [decide_eq_decide]
    omega

theorem hasSignedExponent_decimal (d : Decimal) :
    Text.hasSignedExponent d.chars =
      decide (5 < -d.magnitude.exponent - (digits d.magnitude.digits).length ∨
        15 < d.magnitude.exponent) := by
  unfold Decimal.chars
  rw [hasSignedExponent_sign]
  generalize d.magnitude = s
  unfold Decimal.magnitudeText
  split
  · rename_i hl
    rw [hasSignedExponent_exponent (IsUnsigned.mantissa s) (.inr rfl), decide_eq_decide]
    have hlead : s.leading < 0 := by
      unfold Scientific.leading
      omega
    exact ⟨fun _ => .inl hl, fun _ => hlead⟩
  · rename_i hl
    split
    · rename_i hs
      rw [hasSignedExponent_append _ (.inl rfl) (.inr rfl), decide_eq_true (.inr hs)]
    · rename_i hs
      rw [(IsUnsigned.positional s).hasSignedExponent, decide_eq_false (not_or.mpr ⟨hl, hs⟩)]

namespace Dialect

theorem hasSignedExponent_float_iff (d : Dialect) (x : Binary64) :
    (Value.float x).hasSignedExponent = true ↔
      x.isFinite = true ∧ Text.hasSignedExponent (d.literal (.float x)).toList = true := by
  cases hf : x.isFinite with
  | true => simp [Value.hasSignedExponent, literal_float]
  | false => simp [Value.hasSignedExponent_of_not_isFinite hf]

theorem hasSignedExponent_decimal_iff (d : Dialect) (x : Decimal) :
    (Value.decimal x).hasSignedExponent = true ↔
      Text.hasSignedExponent (d.literal (.decimal x)).toList = true := by
  rw [literal_decimal, Value.hasSignedExponent]

/-- As an operand a literal is left bare unless it is that of a finite float or of a decimal and has a
sign in its exponent, which is so for the floats that are too small and the decimals that are too small or
too large to be written without an exponent. A placeholder is always left bare. -/
theorem literal_left_bare_iff (d : Dialect) (v : Value) :
    (operand (d.literal v) = d.literal v ↔
      ¬ ((∃ x, v = .float x ∧ x.isFinite = true ∧
          Text.hasSignedExponent (d.literal v).toList = true) ∨
        ∃ x, v = .decimal x ∧ Text.hasSignedExponent (d.literal v).toList = true)) ∧
    (∀ x : Binary64,
      x.isFinite = true ∧ Text.hasSignedExponent (d.literal (.float x)).toList = true ↔
        x.isFinite = true ∧ x.literalDigits.leading < -4) ∧
    (∀ x : Decimal, Text.hasSignedExponent (d.literal (.decimal x)).toList = true ↔
      5 < -x.magnitude.exponent - (digits x.magnitude.digits).length ∨ 15 < x.magnitude.exponent) ∧
    ∀ n, operand (d.placeholder n) = d.placeholder n := by
  refine ⟨?_, fun x => and_congr_right fun hf => ?_, fun x => ?_,
    fun n => operand_of_standsAlone (d.standsAlone_placeholder n)⟩
  · rw [operand_eq_self_iff, standsAlone_literal_eq, Bool.not_eq_true', ← Bool.not_eq_true,
      not_iff_not]
    cases v with
    | float x => simpa using d.hasSignedExponent_float_iff x
    | decimal x => simpa using d.hasSignedExponent_decimal_iff x
    | _ => simp [Value.hasSignedExponent]
  · rw [d.literal_float, Value.toList_literal_float hf, hasSignedExponent_finiteText,
      decide_eq_true_eq]
  · rw [d.literal_decimal, Value.toList_literal_decimal, hasSignedExponent_decimal,
      decide_eq_true_eq]

/-- A float and two decimals that need parentheses, and a float and a decimal that are one step short of
it. -/
example :
    operand (ansi.literal (.float ⟨0x3E7AD7F29ABCAF48⟩)) = "(1e-7)" ∧
      operand (ansi.literal (.decimal ⟨1, 20⟩)) = "(1E-20)" ∧
      operand (ansi.literal (.decimal ⟨1, -20⟩)) = "(1e+20)" ∧
      operand (ansi.literal (.float ⟨0x3F1A36E2EB1C432D⟩)) = "0.0001" ∧
      operand (ansi.literal (.decimal ⟨1, 6⟩)) = "0.000001" := by
  decide +kernel

end Dialect

end SqlExpr
