import SqlExpr.Json.Scalars
import SqlExpr.Proofs.Json.Written
import SqlExpr.Proofs.Numerals
import SqlExpr.Value

/-! # Numbers read back

The numeral of a whole number of 64 bits is read as that number where a value ends behind it, for then
neither another digit nor a point nor an exponent follows.
-/
namespace SqlExpr.Json
open Reader Text

theorem Ends.isDigit_head {cs : List Char} (h : Ends cs) : ∀ c ∈ cs.head?, c.isDigit = false := by
  intro c hc
  rcases h c hc with rfl | rfl | rfl <;> decide

namespace Number

theorem gather_of_isDigit {limit m : Nat} {ds cs : List Char} (hd : ∀ d ∈ ds, d.isDigit = true)
    (hl : Nat.ofDigitChars 10 ds m ≤ limit) (h : ∀ c ∈ cs.head?, c.isDigit = false) :
    gather limit m (ds ++ cs) = (Nat.ofDigitChars 10 ds m, ds.length) := by
  induction ds generalizing m with
  | nil =>
    cases cs with
    | nil => rfl
    | cons c cs =>
      have hc : c.isDigit = false := by simpa using h
      simp [gather, hc, Nat.ofDigitChars_nil]
  | cons d ds ih =>
    rw [Nat.ofDigitChars_cons] at hl ⊢
    have hr := ih (fun d hd' => hd d (List.mem_cons_of_mem _ hd')) hl
    have hm : 10 * m + (d.toNat - 48) ≤ limit := by
      refine Nat.le_trans ?_ hl
      rw [Nat.ofDigitChars_eq_ofDigitChars_zero]
      exact Nat.le_trans (Nat.le_mul_of_pos_left _ (Nat.pow_pos (by decide))) (Nat.le_add_right _ _)
    simp only [List.cons_append, gather, hd d List.mem_cons_self, hm, and_self, if_true]
    exact congrArg (fun r : Nat × Nat => (r.1, r.2 + 1)) hr

theorem reads_gathered {limit m : Nat} {ds cs : List Char} (hd : ∀ d ∈ ds, d.isDigit = true)
    (hl : Nat.ofDigitChars 10 ds m ≤ limit) (hc : Ends cs) :
    Reads (gathered limit m) (ds ++ cs) (Nat.ofDigitChars 10 ds m, ds.length) cs := by
  refine (Reads.rest _).bind ?_
  rw [gather_of_isDigit hd hl hc.isDigit_head]
  exact (Reads.advance ds cs).bind (Reads.pure _ cs)

theorem reads_skipDigits {cs : List Char} (hc : Ends cs) : Reads skipDigits cs 0 cs := by
  have ht : cs.takeWhile Char.isDigit = [] := by
    cases cs with
    | nil => rfl
    | cons c cs => simp [hc.isDigit_head c rfl]
  refine (Reads.rest _).bind ?_
  rw [ht]
  exact (Reads.advance [] cs).bind (Reads.pure 0 cs)

variable {n : Nat} {negative : Bool} {number : Number} {cs : List Char}

/-- What follows the check that no digit stands behind a zero in front. -/
theorem reads_digits (hn : n ≤ greatestNatural) (hw : whole negative n 0 = pure number) (ds : List Char)
    (hd : ∀ d ∈ ds, d.isDigit = true) (hv : digitsValue ds = n) (hc : Ends cs) :
    Reads (do
      let (n, _) ← gathered greatestNatural 0
      let ignored ← skipDigits
      match ← peek with
      | some '.' => readFraction negative n ignored
      | some d =>
        if isExponentMark d then readExponent negative n ignored else whole negative n ignored
      | none => whole negative n ignored) (ds ++ cs) number cs := by
  have hv : Nat.ofDigitChars 10 ds 0 = n := hv
  have hg := reads_gathered (m := 0) hd (hv ▸ hn) hc
  rw [hv] at hg
  have hp : Reads (whole negative n 0) cs number cs := hw ▸ Reads.pure number cs
  refine hg.bind ((reads_skipDigits hc).bind ((Reads.peek cs).bind ?_))
  cases cs with
  | nil => exact hp
  | cons c cs => rcases hc c rfl with rfl | rfl | rfl <;> exact hp

theorem reads_readUnsigned (hn : n ≤ greatestNatural) (hw : whole negative n 0 = pure number)
    (hc : Ends cs) : Reads (readUnsigned negative) (digits n ++ cs) number cs := by
  obtain ⟨d, ds, hds⟩ := List.exists_cons_of_ne_nil (digits_ne_nil n)
  have hd : ∀ e ∈ d :: ds, e.isDigit = true := hds ▸ isDigit_digits n
  refine (Reads.peek _).bind ?_
  simp only [hds, List.cons_append, List.head?_cons, hd d List.mem_cons_self]
  by_cases hz : d = '0'
  · subst hz
    -- The zero is the only digit, and the value is read from no digits.
    obtain rfl := eq_zero_of_digits_eq_cons hds
    obtain rfl : ds = [] := by simpa [digits] using hds
    have hh : cs.head?.any Char.isDigit = false := by
      cases h : cs.head? with
      | none => rfl
      | some c => simp [hc.isDigit_head c (by simp [h])]
    refine (Reads.advance_one '0' cs).bind ((Reads.peek cs).bind ?_)
    simp only [hh]
    exact reads_digits hn hw [] (by simp) rfl hc
  · simp only [hz, if_false]
    exact reads_digits hn hw (d :: ds) hd (by rw [← hds, digitsValue_digits]) hc

theorem reads_natural (hn : n ≤ greatestNatural) (hc : Ends cs) :
    Reads Number.read (digits n ++ cs) (.natural n) cs := by
  obtain ⟨d, ds, hds⟩ := List.exists_cons_of_ne_nil (digits_ne_nil n)
  have hd : d.isDigit = true := isDigit_of_mem_digits (by rw [hds]; exact List.mem_cons_self)
  have hm : some d ≠ some '-' := by
    rintro ⟨⟩
    simp at hd
  have hr : Reads (readUnsigned false) (digits n ++ cs) (.natural n) cs := reads_readUnsigned hn rfl hc
  refine (Reads.peek _).bind ?_
  rw [hds] at hr ⊢
  simp only [List.cons_append, List.head?_cons, hm, if_false]
  exact hr

theorem reads_negative (h : 1 ≤ n ∧ n ≤ Nat.pow 2 63) (hc : Ends cs) :
    Reads Number.read ('-' :: (digits n ++ cs)) (.negative n) cs := by
  have hn : n ≤ greatestNatural := Nat.le_trans h.2 (by decide)
  have hw : whole true n 0 = pure (.negative n) := by simp [whole, h]
  exact (Reads.peek _).bind ((Reads.advance_one '-' _).bind (reads_readUnsigned hn hw hc))

end Number

/-! ## Shapes of numbers -/

variable {α : Type} {a : α}

theorem starts_of_number {c : Char} (h : c = '-' ∨ c.isDigit = true) :
    isSpace c = false ∧ c ≠ ']' := by
  rcases h with rfl | h
  · decide
  · constructor
    · rw [Bool.eq_false_iff]
      intro hs
      simp only [isSpace, Bool.or_eq_true, beq_iff_eq] at hs
      rcases hs with ((rfl | rfl) | rfl) | rfl <;> exact absurd h (by decide)
    · rintro rfl
      exact absurd h (by decide)

theorem digits_starts (n : Nat) : ∃ c cs, digits n = c :: cs ∧ (c = '-' ∨ c.isDigit = true) := by
  obtain ⟨d, ds, hds⟩ := List.exists_cons_of_ne_nil (digits_ne_nil n)
  exact ⟨d, ds, hds, .inr (isDigit_of_mem_digits (hds ▸ List.mem_cons_self))⟩

theorem Written.number {expected s : String} {accept : Number → Except Cause α} {n : Number}
    (hs : ∃ c cs, s.toList = c :: cs ∧ (c = '-' ∨ c.isDigit = true))
    (hn : ∀ cs, Ends cs → Reads Number.read (s.toList ++ cs) n cs) (ha : accept n = .ok a) :
    Written (number expected accept) s a := by
  obtain ⟨c, ds, hs, hc⟩ := hs
  obtain ⟨hsp, hb⟩ := starts_of_number hc
  refine ⟨⟨c, ds, hs, hsp, hb⟩, fun rest hr => ?_⟩
  have hl := reads_accepted (hn rest hr) ha
  rw [hs] at hl ⊢
  refine (Reads.firstOfValue hsp _).bind ?_
  rw [if_pos hc]
  exact hl

theorem Written.byte (b : UInt8) : Written byte b.toNat.repr b := by
  have hb : b.toNat < 256 := b.toNat_lt
  have ht : b.toNat.repr.toList = digits b.toNat := by rw [Nat.repr, String.toList_ofList]; rfl
  refine Written.number (n := .natural b.toNat) ?_ (fun cs hc => ?_) ?_
  · rw [ht]
    exact digits_starts _
  · rw [ht]
    exact Number.reads_natural (Nat.le_trans (Nat.le_of_lt hb) (by decide : 256 ≤ _)) hc
  · simp [hb]

theorem Written.integer (n : Int64) : Written integer (Value.intText n) n := by
  have hp : Nat.pow 2 63 = 2 ^ 63 := rfl
  have hlo := n.le_toInt
  have hhi := n.toInt_lt
  have ht : (Value.intText n).toList = signed n.toInt := by simp [Value.intText]
  by_cases hn : n.toInt < 0
  · have hs : (Value.intText n).toList = '-' :: digits n.toInt.natAbs := by rw [ht, signed, if_pos hn]
    have hi : -(n.toInt.natAbs : Int) = n.toInt := by omega
    refine Written.number (n := .negative n.toInt.natAbs) ⟨'-', _, hs, .inl rfl⟩ (fun cs hc => ?_) ?_
    · rw [hs]
      exact Number.reads_negative (by omega) hc
    · simp only [hi, Int64.ofInt_toInt]
  · have hs : (Value.intText n).toList = digits n.toInt.natAbs := by rw [ht, signed, if_neg hn]
    have hi : (n.toInt.natAbs : Int) = n.toInt := by omega
    have hm : n.toInt.natAbs < Nat.pow 2 63 := by omega
    refine Written.number (n := .natural n.toInt.natAbs) ?_ (fun cs hc => ?_) ?_
    · rw [hs]
      exact digits_starts _
    · rw [hs]
      exact Number.reads_natural (Nat.le_trans (Nat.le_of_lt hm) (by decide)) hc
    · simp only [hm, if_true, ← Int64.ofInt_eq_ofNat, hi, Int64.ofInt_toInt]

end SqlExpr.Json
