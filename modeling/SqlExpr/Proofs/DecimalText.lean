import Mathlib.Data.List.TakeWhile
import Mathlib.Tactic.SplitIfs
import SqlExpr.Number.DecimalReader
import SqlExpr.Proofs.DecimalValue

/-! # Decimals read back

A decimal is read back from its text with its coefficient and its scale, but for two kinds. Zero loses
its scale, and a decimal with up to fifteen zeros behind its digits is written with these zeros, so that
they come back in the coefficient. The number is the same in each case.
-/
namespace SqlExpr
namespace Decimal
open Text

/-! ## Parts of a text -/

/-- What stands behind the base: nothing, or a mark and an exponent. -/
def IsExponent (cs : List Char) (e : Int) : Prop :=
  (cs = [] ∧ e = 0) ∨ ∃ mark es, cs = mark :: es ∧ isExponentMark mark = true ∧ exponent? es = some e

/-- Stated for any function, for the bounds of a scale are too large to be computed with. -/
theorem bind_some_some {α : Type} (build : Int → Int → Option α) (e c : Int) (places : Nat) :
    (do
      let exponent ← some e
      let coefficient ← some c
      build coefficient (places - exponent)) = build c (places - e) := rfl

theorem ofChars?_append {base cs body : List Char} {places : Nat} {e c : Int}
    (hb : ∀ x ∈ base, isExponentMark x = false) (he : IsExponent cs e)
    (hp : withoutPoint base = (body, places)) (hc : coefficient? body = some c) :
    ofChars? (base ++ cs) = ofParts? c (places - e) := by
  have hb' : ∀ x ∈ base, (!isExponentMark x) = true := fun x hx => by simp [hb x hx]
  have h := bind_some_some ofParts? e c places
  rcases he with ⟨rfl, rfl⟩ | ⟨mark, es, rfl, hm, he⟩
  · have ht : base.takeWhile (!isExponentMark ·) = base := List.takeWhile_eq_self_iff.mpr hb'
    have hd : base.dropWhile (!isExponentMark ·) = [] := List.dropWhile_eq_nil_iff.mpr hb'
    simp only [List.append_nil, ofChars?, ht, hd, hp, hc]
    exact h
  · have ht : (base ++ mark :: es).takeWhile (!isExponentMark ·) = base := by
      rw [List.takeWhile_append_of_pos hb']
      simp [hm]
    have hd : (base ++ mark :: es).dropWhile (!isExponentMark ·) = mark :: es := by
      rw [List.dropWhile_append_of_pos hb']
      simp [hm]
    simp only [ofChars?, ht, hd, hp, hc, he]
    exact h

theorem withoutPoint_of_not_mem {cs : List Char} (h : '.' ∉ cs) : withoutPoint cs = (cs, 0) := by
  have hb : ∀ x ∈ cs, (x != '.') = true := fun x hx => by
    simp only [bne_iff_ne]
    rintro rfl
    exact h hx
  simp [withoutPoint, List.takeWhile_eq_self_iff.mpr hb, List.dropWhile_eq_nil_iff.mpr hb]

theorem withoutPoint_append {before behind : List Char} (h : '.' ∉ before)
    (hd : ∀ d ∈ behind, d.isDigit = true) :
    withoutPoint (before ++ '.' :: behind) = (before ++ behind, behind.length) := by
  have hb : ∀ x ∈ before, (x != '.') = true := fun x hx => by
    simp only [bne_iff_ne]
    rintro rfl
    exact h hx
  have hf : behind.filter (· != '_') = behind := List.filter_eq_self.mpr fun d hd' => by
    simp only [bne_iff_ne]
    rintro rfl
    exact absurd (hd _ hd') (by decide)
  simp [withoutPoint, List.takeWhile_append_of_pos hb, List.dropWhile_append_of_pos hb, hf]

/-! ## Signs and digits -/

def sign (negative : Bool) : List Char := if negative then ['-'] else []

def signedValue (negative : Bool) (n : Nat) : Int := if negative then -n else n

theorem digitsNat?_of_isDigit {ds : List Char} (hn : ds ≠ []) (hd : ∀ d ∈ ds, d.isDigit = true) :
    digitsNat? ds = some (digitsValue ds) :=
  if_pos (by simpa [hn] using hd)

theorem digitsNat?_digits (n : Nat) : digitsNat? (digits n) = some n := by
  rw [digitsNat?_of_isDigit (digits_ne_nil n) (isDigit_digits n), digitsValue_digits]

theorem groupedNat?_of_isDigit {ds : List Char} (hn : ds ≠ []) (hd : ∀ d ∈ ds, d.isDigit = true) :
    groupedNat? ds = some (digitsValue ds) := by
  have hf : ds.filter Char.isDigit = ds := List.filter_eq_self.mpr hd
  have ha : (ds.all fun c => c.isDigit || c == '_') = true := by
    rw [List.all_eq_true]
    intro d hd'
    simp [hd d hd']
  obtain ⟨d, es, rfl⟩ := List.exists_cons_of_ne_nil hn
  have hu : ((d :: es).head? == some '_') = false := by
    rw [Bool.eq_false_iff]
    intro hu
    obtain rfl : d = '_' := by simpa using hu
    exact absurd (hd _ List.mem_cons_self) (by decide)
  rw [groupedNat?, hu, ha, hf, digitsNat?_of_isDigit hn hd]
  rfl

theorem coefficient?_sign (negative : Bool) (ds : List Char) (hn : ds ≠ [])
    (hd : ∀ d ∈ ds, d.isDigit = true) :
    coefficient? (sign negative ++ ds) = some (signedValue negative (digitsValue ds)) := by
  have hg := groupedNat?_of_isDigit hn hd
  cases negative with
  | true => simp [sign, coefficient?, hg, signedValue]
  | false =>
    simp only [sign, signedValue, Bool.false_eq_true, if_false, List.nil_append]
    unfold coefficient?
    split
    · exact absurd (hd _ List.mem_cons_self) (by decide)
    · exact absurd (hd _ List.mem_cons_self) (by decide)
    · rw [hg]
      rfl

theorem exponent?_digits (n : Nat) : exponent? (digits n) = some (n : Int) := by
  unfold exponent?
  split
  · rename_i he
    exact absurd (isDigit_digits n '-' (he ▸ List.mem_cons_self)) (by decide)
  · rename_i he
    exact absurd (isDigit_digits n '+' (he ▸ List.mem_cons_self)) (by decide)
  · rw [digitsNat?_digits]
    rfl

theorem exponent?_signed (i : Int) : exponent? (signed i) = some i := by
  unfold signed
  split_ifs with h
  · have hi : -(i.natAbs : Int) = i := by omega
    rw [exponent?, digitsNat?_digits]
    exact congrArg some hi
  · have hi : (i.natAbs : Int) = i := by omega
    rw [exponent?_digits, hi]

theorem exponent?_plus (n : Nat) : exponent? ('+' :: digits n) = some (n : Int) := by
  rw [exponent?, digitsNat?_digits]
  rfl

/-! ## The three notations -/

theorem isExponentMark_of_isDigit {c : Char} (h : c.isDigit = true) : isExponentMark c = false := by
  rw [Bool.eq_false_iff]
  intro hm
  simp only [isExponentMark, Bool.or_eq_true, beq_iff_eq] at hm
  rcases hm with rfl | rfl <;> exact absurd h (by decide)

theorem front_chars (negative : Bool) {ds : List Char} (hd : ∀ d ∈ ds, d.isDigit = true) :
    (∀ x ∈ sign negative ++ ds, isExponentMark x = false) ∧ '.' ∉ sign negative ++ ds := by
  have hs : ∀ x ∈ sign negative, x = '-' := by cases negative <;> simp [sign]
  constructor
  · intro x hx
    rcases List.mem_append.mp hx with hx | hx
    · rw [hs x hx]
      decide
    · exact isExponentMark_of_isDigit (hd x hx)
  · intro hx
    rcases List.mem_append.mp hx with hx | hx
    · exact absurd (hs _ hx) (by decide)
    · exact absurd (hd _ hx) (by decide)

theorem ofChars?_whole (negative : Bool) (ds : List Char) {cs : List Char} {e : Int} (hn : ds ≠ [])
    (hd : ∀ d ∈ ds, d.isDigit = true) (he : IsExponent cs e) :
    ofChars? (sign negative ++ ds ++ cs) =
      ofParts? (signedValue negative (digitsValue ds)) (-e) := by
  obtain ⟨hm, hp⟩ := front_chars negative hd
  rw [ofChars?_append hm he (withoutPoint_of_not_mem hp) (coefficient?_sign negative ds hn hd),
    Int.natCast_zero, Int.zero_sub]

theorem ofChars?_pointed (negative : Bool) (ds es : List Char) {cs : List Char} {e : Int} (hn : ds ≠ [])
    (hd : ∀ d ∈ ds, d.isDigit = true) (hes : ∀ d ∈ es, d.isDigit = true) (he : IsExponent cs e) :
    ofChars? (sign negative ++ ds ++ '.' :: es ++ cs) =
      ofParts? (signedValue negative (digitsValue (ds ++ es))) (es.length - e) := by
  obtain ⟨hm, hp⟩ := front_chars negative hd
  have hm' : ∀ x ∈ sign negative ++ ds ++ '.' :: es, isExponentMark x = false := by
    intro x hx
    rcases List.mem_append.mp hx with hx | hx
    · exact hm x hx
    · rcases List.mem_cons.mp hx with rfl | hx
      · decide
      · exact isExponentMark_of_isDigit (hes x hx)
  have hc := coefficient?_sign negative (ds ++ es) (by simp [hn]) fun d h =>
    (List.mem_append.mp h).elim (hd d) (hes d)
  rw [← List.append_assoc] at hc
  exact ofChars?_append hm' he (withoutPoint_append hp hes) hc

variable (negative : Bool)

theorem ofChars?_scientific (s : Scientific) :
    ofChars? (sign negative ++ (s.mantissa ++ 'E' :: signed s.leading)) =
      ofParts? (signedValue negative s.digits) (-s.exponent) := by
  have he : IsExponent ('E' :: signed s.leading) s.leading :=
    .inr ⟨'E', _, rfl, rfl, exponent?_signed _⟩
  have hd := isDigit_digits s.digits
  have hv := digitsValue_digits s.digits
  have hl : s.leading = s.exponent + (digits s.digits).length - 1 := rfl
  unfold Scientific.mantissa
  rcases hds : digits s.digits with _ | ⟨d, _ | ⟨d', ds⟩⟩
  · exact absurd hds (digits_ne_nil _)
  · rw [hds] at hd hv hl
    have hx : s.leading = s.exponent := by
      rw [hl, List.length_singleton]
      omega
    rw [← List.append_assoc, ofChars?_whole negative [d] (List.cons_ne_nil d []) hd he, hv, hx]
  · rw [hds] at hd hv hl
    have hx : ((d' :: ds).length : Int) - s.leading = -s.exponent := by
      simp only [hl, List.length_cons]
      omega
    have hr := ofChars?_pointed negative [d] (d' :: ds) (by simp) (by simp_all)
      (by simp_all) he
    rw [List.singleton_append, hv, hx] at hr
    rw [← hr]
    simp

theorem ofChars?_powered (n e : Nat) :
    ofChars? (sign negative ++ (digits n ++ 'e' :: '+' :: digits e)) =
      ofParts? (signedValue negative n) (-e) := by
  have he : IsExponent ('e' :: '+' :: digits e) e := .inr ⟨'e', _, rfl, rfl, exponent?_plus e⟩
  rw [← List.append_assoc, ofChars?_whole negative (digits n) (digits_ne_nil n) (isDigit_digits n) he,
    digitsValue_digits]

theorem ofChars?_positional (s : Scientific) :
    ofChars? (sign negative ++ s.positional) =
      ofParts? (signedValue negative (s.digits * 10 ^ s.exponent.toNat)) (-s.exponent).toNat := by
  have he : IsExponent [] 0 := .inl ⟨rfl, rfl⟩
  have hd := isDigit_digits s.digits
  have hz : ∀ n, ∀ d ∈ Scientific.zeros n, d.isDigit = true := fun n d h => by
    rw [List.eq_of_mem_replicate h]
    decide
  have hv := digitsValue_digits s.digits
  have hone : ∀ {n : Nat}, s.exponent < 0 → n * 10 ^ s.exponent.toNat = n := fun h => by
    rw [Int.toNat_of_nonpos h.le, pow_zero, mul_one]
  simp only [Scientific.positional]
  -- No point, a point between the digits, or zeros between it and the digits.
  split_ifs with h₀ hlt
  · have hr := ofChars?_whole negative (digits s.digits ++ Scientific.zeros s.exponent.toNat)
      (by simp [digits_ne_nil]) (fun d h => (List.mem_append.mp h).elim (hd d) (hz _ d)) he
    rw [List.append_nil] at hr
    rw [hr, digitsValue_append, hv, Scientific.zeros, digitsValue_replicate_zero, List.length_replicate,
      h₀]
    rfl
  · have hr := ofChars?_pointed negative
      ((digits s.digits).take ((digits s.digits).length - (-s.exponent).toNat))
      ((digits s.digits).drop ((digits s.digits).length - (-s.exponent).toNat))
      (by rw [Ne, List.take_eq_nil_iff, not_or]; exact ⟨by omega, digits_ne_nil _⟩)
      (fun d h => hd d (List.mem_of_mem_take h))
      (fun d h => hd d (List.mem_of_mem_drop h)) he
    have hlen : (digits s.digits).length - ((digits s.digits).length - (-s.exponent).toNat) =
        (-s.exponent).toNat := by omega
    rw [List.take_append_drop, hv, List.length_drop, hlen, Int.sub_zero, List.append_nil] at hr
    rw [hone (by omega), ← hr]
    simp
  · have hr := ofChars?_pointed negative ['0']
      (Scientific.zeros ((-s.exponent).toNat - (digits s.digits).length) ++ digits s.digits)
      (by simp) (by simp) (fun d h => (List.mem_append.mp h).elim (hz _ d) (hd d)) he
    have hval : digitsValue (['0'] ++ (Scientific.zeros ((-s.exponent).toNat - (digits s.digits).length) ++
        digits s.digits)) = s.digits := by
      rw [digitsValue_append, digitsValue_append, hv, Scientific.zeros, digitsValue_replicate_zero]
      simp [digitsValue, Nat.ofDigitChars_cons]
    have hlen : (Scientific.zeros ((-s.exponent).toNat - (digits s.digits).length) ++
        digits s.digits).length = (-s.exponent).toNat := by
      simp [Scientific.zeros]
      omega
    rw [hval, hlen, Int.sub_zero, List.append_nil] at hr
    rw [hone (by omega), ← hr]
    simp

/-! ## Texts of decimals -/

def reread (d : Decimal) : Decimal :=
  if d.coefficient = 0 then ⟨0, 0⟩
  else if -15 ≤ d.scale.toInt ∧ d.scale.toInt < 0 then
    ⟨d.coefficient * 10 ^ (-d.scale.toInt).toNat, 0⟩
  else d

theorem ofParts?_scale (c : Int) (scale : Int64) : ofParts? c scale.toInt = some ⟨c, scale⟩ := by
  have hlo := scale.le_toInt
  have hhi := scale.toInt_lt
  rw [ofParts?, if_pos ⟨hlo, hhi⟩, Int64.ofInt_toInt]

theorem ofParts?_zero (c : Int) : ofParts? c 0 = some ⟨c, 0⟩ := by
  simpa using ofParts?_scale c 0

theorem signedValue_natAbs (d : Decimal) (n : Nat) :
    signedValue d.isNegative (d.coefficient.natAbs * n) = d.coefficient * n := by
  unfold signedValue isNegative
  by_cases h : d.coefficient < 0
  · have ha : (d.coefficient.natAbs : Int) = -d.coefficient := by omega
    rw [decide_eq_true h, if_pos rfl, Nat.cast_mul, ha, neg_mul, neg_neg]
  · have ha : (d.coefficient.natAbs : Int) = d.coefficient := by omega
    rw [decide_eq_false h, if_neg Bool.false_ne_true, Nat.cast_mul, ha]

theorem ofChars?_magnitude (d : Decimal) (h : d.coefficient ≠ 0) :
    ofChars? (sign d.isNegative ++ magnitudeText ⟨d.coefficient.natAbs, -d.scale.toInt⟩) =
      some d.reread := by
  have hsign : signedValue d.isNegative d.coefficient.natAbs = d.coefficient := by
    simpa using signedValue_natAbs d 1
  simp only [reread, magnitudeText, if_neg h]
  -- Zeros are written behind the digits where neither exponent is, so two cases cannot be.
  split_ifs with hsci hpow hzeros hzeros hzeros
  · omega
  · rw [ofChars?_scientific, neg_neg, hsign, ofParts?_scale]
  · omega
  · obtain ⟨e, he⟩ : ∃ e : Nat, -d.scale.toInt = e := ⟨(-d.scale.toInt).toNat, by omega⟩
    have hs : signed (-d.scale.toInt) = digits e := by
      rw [he, signed, if_neg (by omega)]
      rfl
    rw [hs, ofChars?_powered, ← he, neg_neg, hsign, ofParts?_scale]
  · have hn : (-(-d.scale.toInt)).toNat = 0 := by omega
    rw [ofChars?_positional, signedValue_natAbs, hn]
    exact ofParts?_zero _
  · have hp : (-d.scale.toInt).toNat = 0 := by omega
    have hn : ((-(-d.scale.toInt)).toNat : Int) = d.scale.toInt := by omega
    rw [ofChars?_positional, hp, pow_zero, mul_one, hsign, hn, ofParts?_scale]

theorem ofText?_text (d : Decimal) : ofText? d.text = some d.reread := by
  have hc : d.chars = sign d.isNegative ++ magnitudeText d.magnitude := rfl
  rw [ofText?, text, String.toList_ofList, hc, magnitude]
  split_ifs with h
  · have hn : d.isNegative = false := by simp [isNegative, h]
    have hm : magnitudeText ⟨0, 0⟩ = Scientific.positional ⟨0, 0⟩ := by decide
    have hr := ofChars?_positional false ⟨0, 0⟩
    rw [hn, hm, hr, reread, if_pos h]
    exact ofParts?_zero _
  · exact ofChars?_magnitude d h

theorem toRat_reread (d : Decimal) : d.reread.toRat = d.toRat := by
  unfold reread toRat
  split_ifs with h hz
  · simp [h]
  · obtain ⟨e, he⟩ : ∃ e : Nat, -d.scale.toInt = e := ⟨(-d.scale.toInt).toNat, by omega⟩
    simp [he]
  · rfl

end Decimal

end SqlExpr
