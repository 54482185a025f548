import Mathlib.Tactic.SplitIfs
import SqlExpr.Calendar.Reader
import SqlExpr.Proofs.Numerals

/-! # Dates and timestamps read back

The text of a date is read for that date in every year, with its sign where it has one, and the text of
a timestamp for the timestamp that it shows, to the nanosecond and in leap seconds too. That is the same
timestamp, unless it is in a leap second within a minute. Each field is a numeral of the width that reading
takes at most, or one behind which no digit stands.
-/
namespace SqlExpr
namespace Calendar
open Text

/-! ## Fields -/

theorem isBlank_of_isDigit {c : Char} (h : c.isDigit = true) : isBlank c = false := by
  have hc : 48 ≤ c.toNat ∧ c.toNat ≤ 57 := by
    simp only [Char.isDigit, Bool.and_eq_true, decide_eq_true_eq] at h
    exact h
  rw [Bool.eq_false_iff]
  intro hb
  obtain ⟨s, hs, hle⟩ := inSpans_iff.mp hb
  simp only [blankSpans, List.mem_cons, List.not_mem_nil, or_false] at hs
  rcases hs with rfl | rfl | rfl | rfl | rfl | rfl | rfl | rfl | rfl | rfl <;> simp at hle <;> omega

theorem skipBlanks_digits {ds cs : List Char} (hn : ds ≠ []) (hd : ∀ d ∈ ds, d.isDigit = true) :
    skipBlanks (ds ++ cs) = ds ++ cs := by
  obtain ⟨d, ds, rfl⟩ := List.exists_cons_of_ne_nil hn
  exact skipBlanks_cons_of_not_isBlank (isBlank_of_isDigit (hd d List.mem_cons_self))

theorem number?_padded (width n : Nat) (hw : 0 < width) (hn : n < 10 ^ width) (cs : List Char) :
    number? width (padded width n ++ cs) = some (n, cs) := by
  have hd := isDigit_padded width n
  have hl := length_padded hw hn
  obtain ⟨d, ds, hp⟩ := List.exists_cons_of_ne_nil (padded_ne_nil width n)
  rw [number?, skipBlanks_digits (padded_ne_nil width n) hd,
    digitRun_of_isDigit hd (Nat.le_of_eq hl) (.inl hl), hp, ← digitsValue_padded width n, hp]

theorem longNumber?_padded (width n : Nat) {cs : List Char} (h : ∀ c ∈ cs.head?, c.isDigit = false) :
    longNumber? (padded width n ++ cs) = some (n, cs) := by
  obtain ⟨d, ds, hp⟩ := List.exists_cons_of_ne_nil (padded_ne_nil width n)
  rw [longNumber?, digitRun_of_isDigit (isDigit_padded width n) (by simp) (.inr h), hp, ← digitsValue_padded width n, hp]

theorem mark?_self {mark : Char} (h : isBlank mark = false) (cs : List Char) :
    mark? mark (mark :: cs) = some cs := by
  rw [mark?, skipBlanks_cons_of_not_isBlank h]
  simp

/-! ## Dates -/

theorem year?_yearChars (year : Int) (cs : List Char) :
    year? (Date.yearChars year ++ '-' :: cs) = some (year, '-' :: cs) := by
  have hm : ∀ c ∈ ('-' :: cs).head?, c.isDigit = false := by simp
  unfold Date.yearChars
  split_ifs with hneg hbig
  · have hy : -(year.natAbs : Int) = year := by omega
    rw [List.cons_append, year?, skipBlanks_cons_of_not_isBlank (by decide)]
    simp only [longNumber?_padded 4 _ hm, Option.map_some, hy]
  · have hy : (year.natAbs : Int) = year := by omega
    rw [List.cons_append, year?, skipBlanks_cons_of_not_isBlank (by decide)]
    simp only [longNumber?_padded 4 _ hm, Option.map_some, hy]
  · have hy : (year.natAbs : Int) = year := by omega
    have hn := number?_padded 4 year.natAbs (by decide) (by omega) ('-' :: cs)
    have hd := isDigit_padded 4 year.natAbs
    rw [year?, skipBlanks_digits (padded_ne_nil _ _) hd]
    obtain ⟨d, ds, hp⟩ := List.exists_cons_of_ne_nil (padded_ne_nil 4 year.natAbs)
    have hdig : d.isDigit = true := hd d (hp ▸ List.mem_cons_self)
    rw [hp] at hn ⊢
    split
    · rename_i he
      exact absurd (List.head_eq_of_cons_eq he ▸ hdig) (by decide)
    · rename_i he
      exact absurd (List.head_eq_of_cons_eq he ▸ hdig) (by decide)
    · simp only [hn, Option.map_some, hy]

theorem date?_chars (d : Date) (cs : List Char) : date? (d.chars ++ cs) = some (d, cs) := by
  have hm := number?_padded 2 d.month (by decide) (by have := d.month_le; omega)
  have hd := number?_padded 2 d.day (by decide) (by have := d.day_le; omega)
  have hdash : ∀ cs, mark? '-' ('-' :: cs) = some cs := mark?_self (by decide)
  have hp : Date.ofParts? d.year d.month d.day = some d := dif_pos d.isDay
  have ht : d.chars ++ cs =
      Date.yearChars d.year ++ '-' :: (padded 2 d.month ++ '-' :: (padded 2 d.day ++ cs)) := by
    simp [Date.chars]
  rw [ht, date?]
  simp [year?_yearChars, hdash, hm, hd, hp]

/-! ## Timestamps -/

theorem fraction?_padded {width n : Nat} (hw : 0 < width) (hle : width ≤ 9) (hn : n < 10 ^ width) :
    fraction? ('.' :: padded width n) = some (n * 10 ^ (9 - width), []) := by
  have hl := length_padded hw hn
  have hr : digitRun (padded width n).length (padded width n ++ []) = (padded width n, []) :=
    digitRun_of_isDigit (isDigit_padded width n) (Nat.le_refl _) (.inl rfl)
  have ht : (padded width n ++ List.replicate 9 '0').take 9 =
      padded width n ++ List.replicate (9 - width) '0' := by
    rw [List.take_append, hl, List.take_of_length_le (by omega), List.take_replicate,
      Nat.min_eq_left (by omega)]
  rw [List.append_nil] at hr
  rw [fraction?, hr]
  split
  · rename_i he
    exact absurd (Prod.mk.inj he).1 (padded_ne_nil width n)
  · rename_i he
    obtain ⟨rfl, rfl⟩ := Prod.mk.inj he
    rw [ht, digitsValue_append, digitsValue_replicate_zero, digitsValue_padded, List.length_replicate]
    rfl

theorem fraction?_fractionChars (nanos : Nat) (h : nanos < 1000000000) :
    fraction? (Timestamp.fractionChars nanos) = some (nanos, []) := by
  unfold Timestamp.fractionChars
  split_ifs with h₀ h₃ h₆
  · simp [fraction?, h₀]
  · rw [fraction?_padded (by decide) (by decide) (by omega)]
    congr
    omega
  · rw [fraction?_padded (by decide) (by decide) (by omega)]
    congr
    omega
  · rw [fraction?_padded (by decide) (by decide) (by omega)]
    simp

theorem atTime?_shownSecond {t : Timestamp} (h : t.IsRegular) :
    atTime? t.date t.hour t.minute t.shownSecond t.fraction = some t := by
  obtain ⟨-, -, hs, hn⟩ := t.isTime
  have ht := Timestamp.ofParts?_of_isRegular h
  unfold atTime? Timestamp.shownSecond Timestamp.fraction
  -- In a leap second the text shows one second more, and a thousand million nanoseconds less.
  by_cases hl : 1000000000 ≤ t.nanos
  · have hr : t.nanos % 1000000000 + 1000000000 = t.nanos := by omega
    rw [if_pos (by have := h hl; omega), hr, ← h hl, ht]
  · have hq : t.second + t.nanos / 1000000000 = t.second := by omega
    have hr : t.nanos % 1000000000 = t.nanos := by omega
    rw [hq, hr, if_neg (by omega), ht]

theorem timestamp?_chars {t : Timestamp} (h : t.IsRegular) : timestamp? (t.chars 'T') = some (t, []) := by
  obtain ⟨hh, hm, hs, hn⟩ := t.isTime
  have hhour := number?_padded 2 t.hour (by decide) (by omega)
  have hminute := number?_padded 2 t.minute (by decide) (by omega)
  have hsecond := number?_padded 2 t.shownSecond (by decide) (by
    unfold Timestamp.shownSecond
    omega)
  have hfraction := fraction?_fractionChars t.fraction (Nat.mod_lt _ (by decide))
  have hT : ∀ cs, mark? 'T' ('T' :: cs) = some cs := mark?_self (by decide)
  have hcolon : ∀ cs, mark? ':' (':' :: cs) = some cs := mark?_self (by decide)
  rw [Timestamp.chars, timestamp?, Timestamp.timeChars]
  simp [date?_chars, hT, hcolon, hhour, hminute, hsecond, hfraction, atTime?_shownSecond h]

end Calendar

theorem Date.ofText?_text (d : Date) : Date.ofText? d.text = some d := by
  have h := Calendar.date?_chars d []
  rw [List.append_nil] at h
  simp [ofText?, text, h, Calendar.finished?]

namespace Timestamp

theorem isTime_next {t : Timestamp} (h : ¬ t.IsRegular) :
    Calendar.IsTime t.hour t.minute (t.second + 1) (t.nanos - 1000000000) := by
  obtain ⟨hh, hm, hs, hn⟩ := t.isTime
  unfold IsRegular at h
  exact ⟨hh, hm, by omega, by omega⟩

/-- The timestamp that the text shows: for a leap second within a minute the one a second later. -/
def shown (t : Timestamp) : Timestamp :=
  if h : t.IsRegular then t
  else ⟨t.date, t.hour, t.minute, t.second + 1, t.nanos - 1000000000, isTime_next h⟩

theorem shown_of_isRegular {t : Timestamp} (h : t.IsRegular) : t.shown = t := dif_pos h

theorem isRegular_shown (t : Timestamp) : t.shown.IsRegular := by
  obtain ⟨-, -, -, hn⟩ := t.isTime
  by_cases h : t.IsRegular
  · rwa [shown_of_isRegular h]
  · rw [shown, dif_neg h]
    intro hl
    exact absurd hl (by simp only; omega)

theorem shown_eq_self_iff {t : Timestamp} : t.shown = t ↔ t.IsRegular := by
  constructor
  · intro h
    exact h ▸ t.isRegular_shown
  · exact shown_of_isRegular

theorem chars_shown (mark : Char) (t : Timestamp) : t.shown.chars mark = t.chars mark := by
  by_cases h : t.IsRegular
  · rw [shown_of_isRegular h]
  · obtain ⟨-, -, hs, hn⟩ := t.isTime
    have hl : 1000000000 ≤ t.nanos ∧ t.second ≠ 59 := by
      unfold IsRegular at h
      omega
    have hsecond : t.second + 1 + (t.nanos - 1000000000) / 1000000000 =
        t.second + t.nanos / 1000000000 := by omega
    have hfraction : (t.nanos - 1000000000) % 1000000000 = t.nanos % 1000000000 := by omega
    rw [shown, dif_neg h]
    simp only [chars, timeChars, shownSecond, fraction, hsecond, hfraction]

theorem ofText?_isoText (t : Timestamp) : ofText? t.isoText = some t.shown := by
  have h := Calendar.timestamp?_chars t.isRegular_shown
  rw [chars_shown] at h
  simp [ofText?, isoText, h, Calendar.finished?]

end Timestamp

end SqlExpr
