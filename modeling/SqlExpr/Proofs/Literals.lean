import SqlExpr.Dialect
import SqlExpr.Proofs.Groups

/-! # Literals as operands

A literal opens and closes no group and leaves no quote open, whatever its value contains. It stands
alone as well, unless it is a number whose exponent has a sign: that sign belongs to no name.
-/
namespace SqlExpr
open Text Fragment

/-- An `e` in either case with a sign right behind it. -/
def Text.hasSignedExponent : List Char → Bool
  | [] => false
  | c :: cs =>
    ((c == 'e' || c == 'E') && cs.head?.any fun d => d == '-' || d == '+') || hasSignedExponent cs

/-- A float or decimal whose literal has a sign in its exponent. -/
def Value.hasSignedExponent (v : Value) : Bool :=
  match v with
  | .float _ | .decimal _ => Text.hasSignedExponent v.literal.toList
  | _ => false

theorem Text.hasSignedExponent_append (m : List Char) {mark sign : Char}
    (hm : mark = 'e' ∨ mark = 'E') (hs : sign = '-' ∨ sign = '+') (cs : List Char) :
    hasSignedExponent (m ++ mark :: sign :: cs) = true := by
  induction m with
  | nil => rcases hm with rfl | rfl <;> rcases hs with rfl | rfl <;> simp [hasSignedExponent]
  | cons c m ih => rw [List.cons_append, hasSignedExponent, ih, Bool.or_true]

theorem Text.hasSignedExponent_of_not_mem {cs : List Char} (he : 'e' ∉ cs) (hE : 'E' ∉ cs) :
    hasSignedExponent cs = false := by
  induction cs with
  | nil => rfl
  | cons c cs ih =>
    obtain ⟨hc, he⟩ := not_or.mp fun hm => he (List.mem_cons.mpr hm)
    obtain ⟨hC, hE⟩ := not_or.mp fun hm => hE (List.mem_cons.mpr hm)
    simp [hasSignedExponent, ih he hE, Ne.symm hc, Ne.symm hC]

theorem Text.hasSignedExponent_append_cons (s : List Char) {c : Char}
    (hc : c ∉ ['e', 'E', '-', '+']) (t : List Char) :
    hasSignedExponent (s ++ c :: t) = (hasSignedExponent s || hasSignedExponent t) := by
  simp only [List.mem_cons, List.not_mem_nil, or_false, not_or] at hc
  obtain ⟨he, hE, hm, hp⟩ := hc
  induction s with
  | nil => simp [hasSignedExponent, he, hE]
  | cons d s ih =>
    rw [List.cons_append, hasSignedExponent, hasSignedExponent, ih, Bool.or_assoc]
    cases s with
    | nil => simp [hm, hp]
    | cons => rfl

/-- The sign of an exponent is never the first character. -/
theorem Text.exists_sign_of_hasSignedExponent {c : Char} {cs : List Char}
    (h : hasSignedExponent (c :: cs) = true) : ∃ s ∈ cs, s = '-' ∨ s = '+' := by
  induction cs generalizing c with
  | nil => simp [hasSignedExponent] at h
  | cons d cs ih =>
    rw [hasSignedExponent, Bool.or_eq_true] at h
    rcases h with h | h
    · exact ⟨d, List.mem_cons_self, by simpa using (Bool.and_eq_true_iff.mp h).2⟩
    · obtain ⟨s, hs, he⟩ := ih h
      exact ⟨s, List.mem_cons_of_mem _ hs, he⟩

theorem Text.hasSignedExponent_signed (i : Int) : hasSignedExponent (signed i) = false := by
  have hd : ∀ c ∈ signed i, c = '-' ∨ c.isDigit = true := by
    intro c hc
    unfold signed at hc
    split at hc
    · rcases List.mem_cons.mp hc with rfl | hc
      · exact .inl rfl
      · exact .inr (isDigit_of_mem_digits hc)
    · exact .inr (isDigit_of_mem_digits hc)
  apply hasSignedExponent_of_not_mem
  · intro hm
    exact absurd (hd _ hm) (by decide)
  · intro hm
    exact absurd (hd _ hm) (by decide)

section SignedExponent

variable {cs : List Char} (h : hasSignedExponent cs = true)
include h

theorem isName_of_hasSignedExponent : isName cs = false := by
  cases cs with
  | nil => rfl
  | cons c cs =>
    obtain ⟨s, hs, he⟩ := exists_sign_of_hasSignedExponent h
    have hn : isNameChar s = false := by rcases he with rfl | rfl <;> decide +kernel
    have ha : cs.all isNameChar = false := List.all_eq_false.mpr ⟨s, hs, by simp [hn]⟩
    by_cases hc : c = '-'
    · rw [hc, isName_minus, ha, Bool.and_false]
    · rw [isName_of_ne hc, List.all_cons, ha, Bool.and_false]

/-- The sign of an exponent is in no name, and it stays in the part of the text that has to be one. -/
theorem standsAlone_of_hasSignedExponent (hp : ∀ c ∈ cs, isPlain c = true) :
    standsAlone cs = false := by
  have htoken : isToken cs = false := by
    unfold isToken
    rw [if_neg (by rintro rfl; cases h)]
    cases hb : beforeStar? cs with
    | some base =>
      obtain rfl := eq_of_beforeStar? hb
      rw [hasSignedExponent_append_cons base (by decide)] at h
      exact isName_of_hasSignedExponent (by simpa [hasSignedExponent] using h)
    | none =>
      cases hs : splitCast cs with
      | none => exact isName_of_hasSignedExponent h
      | some p =>
        obtain ⟨value, type⟩ := p
        obtain rfl := eq_of_splitCast hs
        rw [hasSignedExponent_append_cons value (by decide), Bool.or_eq_true] at h
        rcases h with h | h
        · have hv := isConstant_eq_false_of_plain fun c hc => hp c (List.mem_append_left _ hc)
          simp [isName_of_hasSignedExponent h, hv]
        · have ht := @isName_of_hasSignedExponent type (by simpa [hasSignedExponent] using h)
          simp [ht]
  have he : cs.isEmpty = false := by
    cases cs with
    | nil => cases h
    | cons => rfl
  rw [standsAlone, he, htoken, isConstant_eq_false_of_plain hp, isGroup_eq_false_of_plain hp]
  rfl

end SignedExponent

def isUnsignedChar (c : Char) : Bool := c.isDigit || c == '.' || c == 'e' || c == 'E'

theorem isPlain_of_isUnsignedChar {c : Char} (h : isUnsignedChar c = true) : isPlain c = true := by
  refine isPlain_iff.mpr ⟨?_, ?_, ?_⟩ <;> rintro rfl <;> exact absurd h (by decide)

theorem isNameChar_of_isUnsignedChar {c : Char} (h : isUnsignedChar c = true) :
    isNameChar c = true := by
  simp only [isUnsignedChar, Bool.or_eq_true, beq_iff_eq] at h
  rcases h with ((h | rfl) | rfl) | rfl
  · exact isNameChar_of_isDigit h
  · decide +kernel
  · decide +kernel
  · decide +kernel

structure IsUnsigned (cs : List Char) : Prop where
  starts : startsDigit cs = true
  chars : ∀ c ∈ cs, isUnsignedChar c = true

namespace IsUnsigned

variable {s t : List Char}

theorem of_digits (hn : s ≠ []) (h : ∀ c ∈ s, c.isDigit = true) : IsUnsigned s := by
  obtain ⟨c, s, rfl⟩ := List.exists_cons_of_ne_nil hn
  have hc := h c List.mem_cons_self
  exact ⟨by simpa [startsDigit] using hc, fun d hd => by simp [isUnsignedChar, h d hd]⟩

theorem digits (n : Nat) : IsUnsigned (Text.digits n) :=
  of_digits (digits_ne_nil n) fun _ => isDigit_of_mem_digits

theorem append (hs : IsUnsigned s) (ht : ∀ c ∈ t, isUnsignedChar c = true) : IsUnsigned (s ++ t) := by
  constructor
  · exact startsDigit_append hs.starts t
  · intro c hc
    exact (List.mem_append.mp hc).elim (hs.chars c) (ht c)

theorem append_point (hs : IsUnsigned s) (ht : ∀ c ∈ t, isUnsignedChar c = true) :
    IsUnsigned (s ++ '.' :: t) := by
  refine hs.append fun c hc => ?_
  rcases List.mem_cons.mp hc with rfl | hc
  · rfl
  · exact ht c hc

theorem zeros (n : Nat) : ∀ c ∈ Scientific.zeros n, isUnsignedChar c = true := by
  intro c hc
  rw [List.eq_of_mem_replicate hc]
  rfl

theorem positional (s : Scientific) : IsUnsigned s.positional := by
  have hd := digits s.digits
  simp only [Scientific.positional]
  -- The number is whole, or its point stands between digits or in front of all of them.
  split
  · exact hd.append (zeros _)
  · split
    · rename_i hplaces hlt
      have ht := of_digits (s := (Text.digits s.digits).take ((Text.digits s.digits).length -
        (-s.exponent).toNat)) (List.ne_nil_of_length_pos (by rw [List.length_take]; omega))
        fun c hc => isDigit_of_mem_digits (List.mem_of_mem_take hc)
      exact ht.append_point fun c hc => hd.chars c (List.mem_of_mem_drop hc)
    · have hz : IsUnsigned ['0', '.'] := ⟨rfl, List.all_eq_true.mp rfl⟩
      exact (hz.append (zeros _)).append hd.chars

theorem mantissa (s : Scientific) : IsUnsigned s.mantissa := by
  have hd := digits s.digits
  unfold Scientific.mantissa
  split
  · rename_i d d' ds he
    rw [he] at hd
    have h₁ : IsUnsigned [d] := ⟨hd.starts, fun c hc => hd.chars c (by simp_all)⟩
    exact h₁.append_point fun c hc => hd.chars c (List.mem_cons_of_mem _ hc)
  · exact hd

end IsUnsigned

/-- A number without its sign. Unless its exponent has a sign, all of it may be part of a name. -/
structure IsMagnitude (cs : List Char) : Prop where
  starts : startsDigit cs = true
  plain : ∀ c ∈ cs, isPlain c = true
  name : hasSignedExponent cs = false → ∀ c ∈ cs, isNameChar c = true

namespace IsMagnitude

variable {m : List Char}

theorem of_unsigned (h : IsUnsigned m) : IsMagnitude m :=
  ⟨h.starts, fun c hc => isPlain_of_isUnsignedChar (h.chars c hc),
    fun _ c hc => isNameChar_of_isUnsignedChar (h.chars c hc)⟩

variable {mark : Char} (hm : mark = 'e' ∨ mark = 'E')
include hm

theorem with_sign {sign : Char} (hs : sign = '-' ∨ sign = '+') (h : IsUnsigned m) {cs : List Char}
    (hc : ∀ c ∈ cs, isPlain c = true) : IsMagnitude (m ++ mark :: sign :: cs) := by
  constructor
  · exact startsDigit_append h.starts _
  · intro c hmem
    simp only [List.mem_append, List.mem_cons] at hmem
    rcases hmem with hmem | rfl | rfl | hmem
    · exact isPlain_of_isUnsignedChar (h.chars c hmem)
    · rcases hm with rfl | rfl <;> rfl
    · rcases hs with rfl | rfl <;> rfl
    · exact hc c hmem
  · intro he
    rw [hasSignedExponent_append m hm hs] at he
    cases he

theorem with_exponent (h : IsUnsigned m) (i : Int) : IsMagnitude (m ++ mark :: signed i) := by
  have hd := (IsUnsigned.digits i.natAbs).chars
  unfold signed
  split
  · exact with_sign hm (.inl rfl) h fun c hc => isPlain_of_isUnsignedChar (hd c hc)
  · refine of_unsigned (h.append fun c hc => ?_)
    rcases List.mem_cons.mp hc with rfl | hc
    · rcases hm with rfl | rfl <;> rfl
    · exact hd c hc

end IsMagnitude

/-- A number: a magnitude, behind a minus sign or not. -/
def IsNumber (cs : List Char) : Prop := ∃ m, IsMagnitude m ∧ (cs = m ∨ cs = '-' :: m)

namespace IsNumber

variable {cs : List Char}

theorem of_sign {m : List Char} (h : IsMagnitude m) (negative : Bool) :
    IsNumber ((if negative then ['-'] else []) ++ m) := by
  refine ⟨m, h, ?_⟩
  cases negative
  · exact .inl rfl
  · exact .inr rfl

theorem plain (h : IsNumber cs) : ∀ c ∈ cs, isPlain c = true := by
  obtain ⟨m, hm, rfl | rfl⟩ := h
  · exact hm.plain
  · intro c hc
    rcases List.mem_cons.mp hc with rfl | hc
    · rfl
    · exact hm.plain c hc

theorem ne_nil (h : IsNumber cs) : cs ≠ [] := by
  rintro rfl
  obtain ⟨m, hm, rfl | he⟩ := h
  · cases hm.starts
  · cases he

theorem standsAlone (h : IsNumber cs) (he : hasSignedExponent cs = false) :
    standsAlone cs = true := by
  apply standsAlone_of_isName
  obtain ⟨m, hm, rfl | rfl⟩ := h
  · have hn := hm.starts
    have ha := List.all_eq_true.mpr (hm.name he)
    cases cs with
    | nil => cases hn
    | cons c cs =>
      have hc : c ≠ '-' := by
        rintro rfl
        cases hn
      rwa [isName_of_ne hc]
  · have ha := List.all_eq_true.mpr (hm.name (by simpa [hasSignedExponent] using he))
    rw [isName_minus, hm.starts, ha]
    rfl

theorem signed (i : Int) : IsNumber (Text.signed i) := by
  have hm := IsMagnitude.of_unsigned (IsUnsigned.digits i.natAbs)
  unfold Text.signed
  split
  · exact ⟨_, hm, .inr rfl⟩
  · exact ⟨_, hm, .inl rfl⟩

theorem finiteText (x : Binary64) : IsNumber (FloatFormat.literal.finiteText x) := by
  unfold FloatFormat.finiteText
  refine of_sign ?_ _
  generalize (if x.isZero = true then _ else _ : Scientific) = s
  unfold FloatFormat.unsignedText
  split
  · refine .of_unsigned ((IsUnsigned.positional s).append ?_)
    split
    · exact List.all_eq_true.mp rfl
    · simp
  · have he : FloatFormat.literal.exponentText s.leading = 'e' :: Text.signed s.leading := by
      simp [FloatFormat.exponentText, FloatFormat.literal]
    rw [he]
    exact .with_exponent (.inl rfl) (IsUnsigned.mantissa s) _

theorem decimal (d : Decimal) : IsNumber d.chars := by
  unfold Decimal.chars
  refine of_sign ?_ _
  generalize d.magnitude = s
  unfold Decimal.magnitudeText
  split
  · exact .with_exponent (.inr rfl) (IsUnsigned.mantissa s) _
  · split
    · rename_i hl hs
      exact .with_sign (.inl rfl) (.inr rfl) (IsUnsigned.digits s.digits) fun c hc =>
        (signed s.exponent).plain c hc
    · exact .of_unsigned (IsUnsigned.positional s)

end IsNumber

namespace Value

theorem toList_literal_float {x : Binary64} (h : x.isFinite = true) :
    (float x).literal.toList = FloatFormat.literal.finiteText x := by
  simp [literal, h, Binary64.text]

theorem toList_literal_decimal (x : Decimal) : (decimal x).literal.toList = x.chars := by
  simp [literal, Decimal.text]

/-- The name of a number that is not finite has no exponent. -/
theorem hasSignedExponent_of_not_isFinite {x : Binary64} (h : x.isFinite = false) :
    (float x).hasSignedExponent = false := by
  have hn : Text.hasSignedExponent (quotedText x.nonFiniteText).toList = false := by
    unfold Binary64.nonFiniteText
    cases x.isNaN <;> cases x.isNegative <;> decide
  simp [hasSignedExponent, literal, h, hn]

end Value

inductive LiteralForm (v : Value) : List Char → Prop where
  | word {t : List Char} (h : t ∈ ["NULL".toList, "TRUE".toList, "FALSE".toList]) : LiteralForm v t
  | number {t : List Char} (h : IsNumber t)
      (he : v.hasSignedExponent = false → hasSignedExponent t = false) : LiteralForm v t
  | quoted (s : List Char) : LiteralForm v (quoted '\'' s)
  | bytes (s : List Char) : LiteralForm v ('X' :: quoted '\'' s)
  | bytea {s : List Char} (h : ':' ∉ s) : LiteralForm v (quoted '\'' s ++ "::bytea".toList)

namespace LiteralForm

variable {v : Value} {t : List Char}

theorem isSealed (h : LiteralForm v t) : IsSealed t := by
  cases h with
  | word h =>
    simp only [List.mem_cons, List.not_mem_nil, or_false] at h
    rcases h with rfl | rfl | rfl <;> exact isSealed_of_plain (by decide) rfl
  | number h => exact isSealed_of_plain h.ne_nil (List.all_eq_true.mpr h.plain)
  | quoted s => exact isSealed_quoted s
  | bytes s => exact (isSealed_of_plain (t := ['X']) (by decide) rfl).append (isSealed_quoted s)
  | bytea _ => exact (isSealed_quoted _).append (isSealed_of_plain (by decide) rfl)

theorem isToken_bytea {s : List Char} (h : ':' ∉ s) :
    isToken (Text.quoted '\'' s ++ "::bytea".toList) = true := by
  have hq : ':' ∉ Text.quoted '\'' s := by
    have hc := count_doubled '\'' ':' s
    rw [List.count_eq_zero.mpr h, Nat.mul_zero, List.count_eq_zero] at hc
    simp [Text.quoted, hc]
  have hb : beforeStar? (Text.quoted '\'' s ++ "::bytea".toList) = none := by
    simp [beforeStar?]
  have hs : splitCast (Text.quoted '\'' s ++ "::bytea".toList) = some (_, "bytea".toList) :=
    splitCast_of_not_mem hq "bytea".toList
  have hn : isName "bytea".toList = true := by decide +kernel
  unfold isToken
  rw [if_neg (by simp [Text.quoted]), hb, hs]
  show (_ || isConstant _) && isName "bytea".toList
  rw [isConstant_quoted, hn, Bool.or_true, Bool.and_true]

theorem standsAlone (h : LiteralForm v t) (he : v.hasSignedExponent = false) :
    standsAlone t = true := by
  cases h with
  | word h =>
    simp only [List.mem_cons, List.not_mem_nil, or_false] at h
    rcases h with rfl | rfl | rfl <;> exact standsAlone_of_isName (by decide +kernel)
  | number h hs => exact h.standsAlone (hs he)
  | quoted s => simp [Fragment.standsAlone, isConstant_quoted]
  | bytes s => simp [Fragment.standsAlone, isConstant_cons_quoted (c := 'X') (by decide)]
  | bytea h =>
    unfold Fragment.standsAlone
    rw [isToken_bytea h]
    simp

theorem of_value (v : Value) : LiteralForm v v.literal.toList := by
  cases v with
  | null => exact .word (by simp [Value.literal])
  | int n =>
    have ht : (Value.int n).literal.toList = signed n.toInt := by simp [Value.literal, Value.intText]
    rw [ht]
    exact .number (.signed _) fun _ => hasSignedExponent_signed _
  | float x =>
    cases hf : x.isFinite with
    | true => exact .number (Value.toList_literal_float hf ▸ IsNumber.finiteText x) id
    | false =>
      have ht : (Value.float x).literal.toList = Text.quoted '\'' x.nonFiniteText.toList := by
        simp [Value.literal, hf, Value.quotedText]
      rw [ht]
      exact .quoted _
  | decimal x => exact .number (Value.toList_literal_decimal x ▸ IsNumber.decimal x) id
  | boolean b => cases b <;> exact .word (by simp [Value.literal])
  | string | date | timestamp =>
    simp only [Value.literal, Value.quotedText, String.toList_ofList]
    exact .quoted _
  | bytes bs =>
    have ht : (Value.bytes bs).literal.toList = 'X' :: Text.quoted '\'' (hex bs) := by
      simp [Value.literal, Value.quotedText, Value.hexText]
    rw [ht]
    exact .bytes _

theorem colon_not_mem_hex (bs : List UInt8) : ':' ∉ hex bs := by
  intro hm
  exact absurd (mem_hexDigits_of_mem_hex hm) (by decide)

theorem of_dialect (d : Dialect) (v : Value) : LiteralForm v (d.literal v).toList := by
  cases d with
  | ansi => exact of_value v
  | postgres =>
    cases v with
    | bytes bs =>
      have ht : (Dialect.postgres.literal (.bytes bs)).toList =
          Text.quoted '\'' ('\\' :: 'x' :: hex bs) ++ "::bytea".toList := by
        simp [Dialect.literal, Value.quotedText, Value.hexText]
      rw [ht]
      exact .bytea (by simp [colon_not_mem_hex])
    | _ => exact of_value _
  | mysql =>
    cases v with
    | string s =>
      simp only [Dialect.literal, Value.quotedText, String.toList_ofList]
      exact .quoted _
    | _ => exact of_value _

end LiteralForm

namespace Dialect

theorem isSealed_literal (d : Dialect) (v : Value) : IsSealed (d.literal v).toList :=
  (LiteralForm.of_dialect d v).isSealed

theorem standsAlone_literal (d : Dialect) {v : Value} (h : v.hasSignedExponent = false) :
    standsAlone (d.literal v).toList = true :=
  (LiteralForm.of_dialect d v).standsAlone h

theorem literal_float (d : Dialect) (x : Binary64) :
    d.literal (.float x) = (Value.float x).literal := by
  cases d <;> rfl

theorem literal_decimal (d : Dialect) (x : Decimal) :
    d.literal (.decimal x) = (Value.decimal x).literal := by
  cases d <;> rfl

/-- A literal is no operand as it is only where a number has a sign in its exponent. -/
theorem standsAlone_literal_eq (d : Dialect) (v : Value) :
    standsAlone (d.literal v).toList = !v.hasSignedExponent := by
  cases he : v.hasSignedExponent with
  | false => exact d.standsAlone_literal he
  | true =>
    cases v with
    | float x =>
      rw [literal_float]
      cases hf : x.isFinite with
      | true =>
        have hn : IsNumber (Value.float x).literal.toList :=
          Value.toList_literal_float hf ▸ IsNumber.finiteText x
        exact standsAlone_of_hasSignedExponent he hn.plain
      | false =>
        rw [Value.hasSignedExponent_of_not_isFinite hf] at he
        cases he
    | decimal x =>
      have hn : IsNumber (Value.decimal x).literal.toList :=
        Value.toList_literal_decimal x ▸ IsNumber.decimal x
      rw [literal_decimal]
      exact standsAlone_of_hasSignedExponent he hn.plain
    | null | int _ | string _ | boolean _ | date _ | timestamp _ | bytes _ =>
      simp [Value.hasSignedExponent] at he

end Dialect

end SqlExpr
