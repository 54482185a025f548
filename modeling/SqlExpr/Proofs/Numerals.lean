import Mathlib.Algebra.Group.Nat.Defs
import SqlExpr.Text.Digits

/-! # Numerals read back

A numeral, also one filled with zeros on the left, has the value that it was made from, and the longest
run of digits at the start of a text is the numeral that stands there when no digit follows it.
-/
namespace SqlExpr.Text

theorem digits_of_lt_ten {n : Nat} (h : n < 10) : digits n = [Nat.digitChar n] :=
  Nat.toDigits_of_lt_base h

theorem isDigit_digits (n : Nat) : ∀ d ∈ digits n, d.isDigit = true :=
  fun _ => isDigit_of_mem_digits

theorem isDigit_padded (width n : Nat) : ∀ d ∈ padded width n, d.isDigit = true :=
  fun _ => isDigit_of_mem_padded

theorem length_digits_pos (n : Nat) : 0 < (digits n).length := Nat.length_toDigits_pos

theorem length_digits_le_iff {n k : Nat} (hk : 0 < k) : (digits n).length ≤ k ↔ n < 10 ^ k :=
  Nat.length_toDigits_le_iff (by decide) hk

theorem digitsValue_append (cs ds : List Char) :
    digitsValue (cs ++ ds) = digitsValue cs * 10 ^ ds.length + digitsValue ds := by
  rw [digitsValue, Nat.ofDigitChars_append, Nat.ofDigitChars_eq_ofDigitChars_zero, Nat.mul_comm]
  rfl

theorem digitsValue_replicate_zero (n : Nat) : digitsValue (List.replicate n '0') = 0 := by
  simp [digitsValue, Nat.ofDigitChars_replicate_zero]

theorem eq_zero_of_digits_eq_cons {n : Nat} {ds : List Char} (h : digits n = '0' :: ds) : n = 0 := by
  induction n using Nat.strongRecOn generalizing ds with
  | _ n ih =>
    by_cases hn : n < 10
    · rw [digits_of_lt_ten hn] at h
      exact Nat.digitChar_eq_zero.mp (List.head_eq_of_cons_eq h)
    · obtain ⟨e, es, he⟩ := List.exists_cons_of_ne_nil (digits_ne_nil (n / 10))
      rw [digits, Nat.toDigits_of_base_le (by decide) (by omega), ← digits, he] at h
      obtain rfl : e = '0' := List.head_eq_of_cons_eq h
      have hz := ih (n / 10) (by omega) he
      omega

theorem digitsValue_padded (width n : Nat) : digitsValue (padded width n) = n := by
  rw [padded, digitsValue_append, digitsValue_replicate_zero, digitsValue_digits]
  simp

theorem padded_ne_nil (width n : Nat) : padded width n ≠ [] := by
  simp [padded, digits_ne_nil]

theorem length_padded {width n : Nat} (hw : 0 < width) (hn : n < 10 ^ width) :
    (padded width n).length = width := by
  have h := (length_digits_le_iff hw).mpr hn
  simp only [padded, List.length_append, List.length_replicate]
  omega

/-- A run of digits that is as long as it may be, or that no digit follows. -/
theorem digitRun_of_isDigit {limit : Nat} {ds cs : List Char} (hd : ∀ d ∈ ds, d.isDigit = true)
    (hl : ds.length ≤ limit) (h : ds.length = limit ∨ ∀ c ∈ cs.head?, c.isDigit = false) :
    digitRun limit (ds ++ cs) = (ds, cs) := by
  induction ds generalizing limit with
  | nil =>
    cases limit with
    | zero => rfl
    | succ limit =>
      cases cs with
      | nil => rfl
      | cons c cs =>
        have hc : c.isDigit = false := by simpa using h
        simp [digitRun, hc]
  | cons d ds ih =>
    obtain ⟨limit, rfl⟩ : ∃ n, limit = n + 1 := ⟨limit - 1, by simp at hl; omega⟩
    have hr := ih (fun d hd' => hd d (List.mem_cons_of_mem _ hd')) (by simpa using hl)
      (by simpa using h)
    simp [digitRun, hd d List.mem_cons_self, hr]

end SqlExpr.Text
