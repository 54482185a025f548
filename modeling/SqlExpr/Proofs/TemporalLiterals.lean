import SqlExpr.Dialect
import SqlExpr.Proofs.CalendarText

/-! # Literals of dates and timestamps

Two dates never share a text: a date is read back in front of whatever follows. What follows in a timestamp
is read back as the time that it shows, so that two timestamps share a text only where one of them is in a
leap second within a minute. A date never has the text of a timestamp, for it has no blank. No text has a character that some dialect would escape, so that all dialects write it between
single quotes as it is.
-/
namespace SqlExpr
open Text Calendar

namespace Calendar

/-- A digit, or a mark in front of a field. -/
def isFieldChar (marks : List Char) (c : Char) : Bool := c.isDigit || marks.contains c

def dateMarks : List Char := ['-', '+']

def timestampMarks : List Char := dateMarks ++ [' ', ':', '.']

variable {marks : List Char} {c : Char}

theorem isFieldChar_of_mem_padded {width n : Nat} (h : c ∈ padded width n) :
    isFieldChar marks c = true := by
  simp [isFieldChar, isDigit_of_mem_padded h]

theorem isFieldChar_of_mem_marked {mark : Char} {width n : Nat} (hm : mark ∈ marks)
    (h : c ∈ mark :: padded width n) : isFieldChar marks c = true := by
  rcases List.mem_cons.mp h with rfl | h
  · simp [isFieldChar, hm]
  · exact isFieldChar_of_mem_padded h

theorem isFieldChar_timestampMarks (h : isFieldChar dateMarks c = true) :
    isFieldChar timestampMarks c = true := by
  simp only [isFieldChar, timestampMarks, List.contains_eq_mem, List.mem_append, Bool.or_eq_true,
    decide_eq_true_eq] at h ⊢
  exact h.imp_right .inl

end Calendar

namespace Date

theorem text_inj {d d' : Date} : d.text = d'.text ↔ d = d' := by
  constructor
  · intro h
    have hr := ofText?_text d
    rw [h, ofText?_text] at hr
    exact (Option.some.inj hr).symm
  · rintro rfl; rfl

theorem isFieldChar_of_mem_yearChars {year : Int} {c : Char} (h : c ∈ yearChars year) :
    isFieldChar dateMarks c = true := by
  unfold yearChars at h
  split at h
  · exact isFieldChar_of_mem_marked (by decide) h
  · split at h
    · exact isFieldChar_of_mem_marked (by decide) h
    · exact isFieldChar_of_mem_padded h

theorem isFieldChar_of_mem_chars {d : Date} {c : Char} (h : c ∈ d.chars) :
    isFieldChar dateMarks c = true := by
  simp only [chars, List.mem_append] at h
  rcases h with (h | h) | h
  · exact isFieldChar_of_mem_yearChars h
  · exact isFieldChar_of_mem_marked (by decide) h
  · exact isFieldChar_of_mem_marked (by decide) h

end Date

namespace Timestamp

/-- Whatever the mark between date and time, it stands where reading the date ends. -/
theorem chars_eq_iff {mark : Char} {t t' : Timestamp} :
    t.chars mark = t'.chars mark ↔ t.shown = t'.shown := by
  constructor
  · intro h
    have hread : ∀ u : Timestamp, date? (u.chars mark) = some (u.date, mark :: u.timeChars) :=
      fun u => date?_chars u.date (mark :: u.timeChars)
    have hp := hread t
    rw [h, hread t'] at hp
    obtain ⟨hd, ht⟩ := Prod.mk.inj (Option.some.inj hp)
    have hiso : t.isoText = t'.isoText := by
      rw [isoText, isoText, chars, chars, hd, (List.cons.inj ht).2]
    have hr := ofText?_isoText t
    rw [hiso, ofText?_isoText] at hr
    exact (Option.some.inj hr).symm
  · intro h
    rw [← chars_shown mark t, h, chars_shown]

theorem text_eq_iff {t t' : Timestamp} : t.text = t'.text ↔ t.shown = t'.shown := by
  rw [← @chars_eq_iff ' ']
  exact ⟨fun h => String.ofList_injective h, congrArg String.ofList⟩

theorem isFieldChar_of_mem_fractionChars {nanos : Nat} {c : Char} (h : c ∈ fractionChars nanos) :
    isFieldChar timestampMarks c = true := by
  unfold fractionChars at h
  split at h
  · simp at h
  · split at h
    · exact isFieldChar_of_mem_marked (by decide) h
    · split at h
      · exact isFieldChar_of_mem_marked (by decide) h
      · exact isFieldChar_of_mem_marked (by decide) h

theorem isFieldChar_of_mem_timeChars {t : Timestamp} {c : Char} (h : c ∈ t.timeChars) :
    isFieldChar timestampMarks c = true := by
  simp only [timeChars, List.mem_append] at h
  rcases h with ((h | h) | h) | h
  · exact isFieldChar_of_mem_padded h
  · exact isFieldChar_of_mem_marked (by decide) h
  · exact isFieldChar_of_mem_marked (by decide) h
  · exact isFieldChar_of_mem_fractionChars h

theorem isFieldChar_of_mem_chars {t : Timestamp} {c : Char} (h : c ∈ t.chars ' ') :
    isFieldChar timestampMarks c = true := by
  simp only [chars, List.mem_append, List.mem_cons] at h
  rcases h with h | rfl | h
  · exact isFieldChar_timestampMarks (Date.isFieldChar_of_mem_chars h)
  · decide
  · exact isFieldChar_of_mem_timeChars h

/-- Leap seconds are regular where they, and only they, are shown as second 60. -/
theorem isRegular_iff {t : Timestamp} :
    t.IsRegular ↔ (t.shownSecond = 60 ↔ 1000000000 ≤ t.nanos) := by
  obtain ⟨-, -, hs, hn⟩ := t.isTime
  unfold IsRegular shownSecond
  omega

end Timestamp

/-- A date has no blank, and the blank in a timestamp is there. -/
theorem Date.text_ne_text (d : Date) (t : Timestamp) : d.text ≠ t.text := by
  intro h
  have hb : ' ' ∈ d.chars := by
    rw [String.ofList_injective h, Timestamp.chars]
    simp
  exact absurd (isFieldChar_of_mem_chars hb) (by decide)

/-- The literal of the value is its text between single quotes, and no character of that text would be
escaped by some dialect. -/
def Dialect.QuotesText (δ : Dialect) (v : Value) : Prop :=
  ∃ s, v.text? = some s ∧ δ.literal v = "'" ++ s ++ "'" ∧ '\'' ∉ s.toList ∧ '\\' ∉ s.toList

namespace Dialect

variable {δ δ' : Dialect} {v w : Value}

theorem quotesText_of_literal_eq {s : String} (ht : v.text? = some s)
    (hl : δ.literal v = Value.quotedText s)
    (hc : ∀ c ∈ s.toList, isFieldChar timestampMarks c = true) : δ.QuotesText v := by
  have hn : ∀ c, isFieldChar timestampMarks c = false → c ∉ s.toList := by
    intro c hf hm
    rw [hc c hm] at hf
    cases hf
  have hq := hn '\'' (by decide)
  refine ⟨s, ht, ?_, hq, hn '\\' (by decide)⟩
  rw [hl, ← String.toList_inj, Value.quotedText, String.toList_ofList, quoted, doubled_of_not_mem hq]
  simp

theorem quotesText_date (δ : Dialect) (d : Date) : δ.QuotesText (.date d) := by
  refine quotesText_of_literal_eq rfl (by cases δ <;> rfl) fun c hc => ?_
  rw [Date.text, String.toList_ofList] at hc
  exact isFieldChar_timestampMarks (Date.isFieldChar_of_mem_chars hc)

theorem quotesText_timestamp (δ : Dialect) (t : Timestamp) : δ.QuotesText (.timestamp t) := by
  refine quotesText_of_literal_eq rfl (by cases δ <;> rfl) fun c hc => ?_
  rw [Timestamp.text, String.toList_ofList] at hc
  exact Timestamp.isFieldChar_of_mem_chars hc

theorem QuotesText.literal_eq_iff (hv : δ.QuotesText v) (hw : δ'.QuotesText w) :
    δ.literal v = δ'.literal w ↔ v.text? = w.text? := by
  obtain ⟨s, hs, hl, _⟩ := hv
  obtain ⟨t, ht, hl', _⟩ := hw
  rw [hs, ht, hl, hl', String.append_left_inj, String.append_right_inj, Option.some_inj]

/-- Dates have the same literal, in whatever dialects, only if they are the same. Timestamps have the same
literal exactly if they show the same, and that is only if they are the same to the nanosecond, as long as
their leap seconds are the ones that are shown as second 60. Their plain texts tell as much, no date shares a
literal or a text with a timestamp, and each literal is the plain text between single quotes. -/
theorem temporal_literal_lossless (δ δ' : Dialect) :
    (∀ d d' : Date,
      (δ.literal (.date d) = δ'.literal (.date d') ↔ d = d') ∧
        ((Value.date d).text? = (Value.date d').text? ↔ d = d')) ∧
    (∀ t t' : Timestamp,
      (δ.literal (.timestamp t) = δ'.literal (.timestamp t') ↔ t.shown = t'.shown) ∧
        ((Value.timestamp t).text? = (Value.timestamp t').text? ↔ t.shown = t'.shown)) ∧
    (∀ t t' : Timestamp, t.IsRegular → t'.IsRegular →
      (δ.literal (.timestamp t) = δ'.literal (.timestamp t') ↔ t = t') ∧
        ((Value.timestamp t).text? = (Value.timestamp t').text? ↔ t = t')) ∧
    (∀ (d : Date) (t : Timestamp),
      δ.literal (.date d) ≠ δ'.literal (.timestamp t) ∧
        (Value.date d).text? ≠ (Value.timestamp t).text?) ∧
    (∀ d : Date, δ.QuotesText (.date d)) ∧
    ∀ t : Timestamp, δ.QuotesText (.timestamp t) ∧
      (t.IsRegular ↔ (t.shownSecond = 60 ↔ 1000000000 ≤ t.nanos)) := by
  have hdate : ∀ d d' : Date, (Value.date d).text? = (Value.date d').text? ↔ d = d' := fun d d' => by
    rw [← Date.text_inj]
    exact Option.some_inj
  have htime : ∀ t t' : Timestamp,
      (Value.timestamp t).text? = (Value.timestamp t').text? ↔ t.shown = t'.shown := fun t t' => by
    rw [← Timestamp.text_eq_iff]
    exact Option.some_inj
  have hliteral : ∀ t t' : Timestamp,
      δ.literal (.timestamp t) = δ'.literal (.timestamp t') ↔ t.shown = t'.shown := fun t t' => by
    rw [(δ.quotesText_timestamp t).literal_eq_iff (δ'.quotesText_timestamp t'), htime]
  have hmixed : ∀ (d : Date) (t : Timestamp), (Value.date d).text? ≠ (Value.timestamp t).text? :=
    fun d t h => d.text_ne_text t (Option.some_inj.mp h)
  refine ⟨fun d d' => ⟨?_, hdate d d'⟩, fun t t' => ⟨hliteral t t', htime t t'⟩, fun t t' ht ht' => ?_,
    fun d t => ⟨?_, hmixed d t⟩, δ.quotesText_date,
    fun t => ⟨δ.quotesText_timestamp t, Timestamp.isRegular_iff⟩⟩
  · rw [(δ.quotesText_date d).literal_eq_iff (δ'.quotesText_date d'), hdate]
  · rw [hliteral, htime, Timestamp.shown_of_isRegular ht, Timestamp.shown_of_isRegular ht']
    exact ⟨Iff.rfl, Iff.rfl⟩
  · rw [ne_eq, (δ.quotesText_date d).literal_eq_iff (δ'.quotesText_timestamp t)]
    exact hmixed d t

/-- Two moments of a leap second in a year of five digits, a nanosecond apart. -/
theorem temporal_literal_lossless_in_leap_second :
    let d : Date := ⟨10000, 6, 30, by decide⟩
    let t : Timestamp := ⟨d, 23, 59, 59, 1000000001, by decide⟩
    let t' : Timestamp := ⟨d, 23, 59, 59, 1000000002, by decide⟩
    (t.IsRegular ∧ t'.IsRegular) ∧
      (mysql.literal (.timestamp t) = postgres.literal (.timestamp t') ↔ t = t') ∧
      mysql.literal (.timestamp t) = "'+10000-06-30 23:59:60.000000001'" := by
  intro d t t'
  have ht : t.IsRegular := by decide
  have ht' : t'.IsRegular := by decide
  exact ⟨⟨ht, ht'⟩, ((temporal_literal_lossless mysql postgres).2.2.1 t t' ht ht').1, by decide⟩

/-- A second whose fraction ends in zeros, in a year before zero. -/
example : postgres.literal (.timestamp ⟨⟨-1, 1, 2, by decide⟩, 0, 0, 7, 120000000, by decide⟩) =
    "'-0001-01-02 00:00:07.120'" := by
  decide

end Dialect

end SqlExpr
