import SqlExpr.Proofs.Filling
import SqlExpr.Proofs.Groups

/-! # Placeholders look alike

Two texts that differ only in which placeholders stand in them are read alike: neither is a token, a
quoted constant or a group unless the other is. So the parentheses of a bound text are those of its
skeleton, whatever the caller wrote around the placeholders.
-/
namespace SqlExpr.Fragment
open Text

/-- A question mark, or a dollar sign with digits behind it. -/
def IsMark (t : List Char) : Prop :=
  t = ['?'] ∨ ∃ ds, t = '$' :: ds ∧ ∀ d ∈ ds, d.isDigit = true

def IsOrdinary (c : Char) : Prop := c ≠ '?' ∧ c ≠ '$' ∧ c.isDigit = false

instance (c : Char) : Decidable (IsOrdinary c) := inferInstanceAs (Decidable (_ ∧ _ ∧ _))

/-- Equal texts but for the placeholders in them. -/
inductive Alike : List Char → List Char → Prop
  | nil : Alike [] []
  | char (c : Char) {s t : List Char} (h : Alike s t) : Alike (c :: s) (c :: t)
  | mark {m m' s t : List Char} (hm : IsMark m) (hm' : IsMark m') (h : Alike s t) :
    Alike (m ++ s) (m' ++ t)

namespace IsMark

variable {m : List Char} {c : Char}

theorem question : IsMark ['?'] := .inl rfl

theorem eq_cons (h : IsMark m) :
    ∃ c ds, m = c :: ds ∧ (c = '?' ∨ c = '$') ∧ ∀ d ∈ ds, d.isDigit = true := by
  rcases h with rfl | ⟨ds, rfl, hd⟩
  · exact ⟨'?', [], rfl, .inl rfl, by simp⟩
  · exact ⟨'$', ds, rfl, .inr rfl, hd⟩

theorem not_mem (h : IsMark m) (hc : IsOrdinary c) : c ∉ m := by
  obtain ⟨x, ds, rfl, hx, hd⟩ := h.eq_cons
  obtain ⟨h₁, h₂, h₃⟩ := hc
  intro hm
  rcases List.mem_cons.mp hm with rfl | hm
  · exact hx.elim h₁ h₂
  · simp [hd c hm] at h₃

theorem ne_nil (h : IsMark m) : m ≠ [] := by
  obtain ⟨x, ds, rfl, _⟩ := h.eq_cons
  simp

theorem isPlain_of_mem (h : IsMark m) (hc : c ∈ m) : isPlain c = true := by
  refine isPlain_iff.mpr ⟨?_, ?_, ?_⟩ <;> rintro rfl <;>
    exact h.not_mem (by decide) hc

theorem isNameChar_of_mem (h : IsMark m) (hc : c ∈ m) : isNameChar c = true := by
  obtain ⟨x, ds, rfl, hx, hd⟩ := h.eq_cons
  rcases List.mem_cons.mp hc with rfl | hc
  · rcases hx with rfl | rfl <;> decide +kernel
  · exact isNameChar_of_isDigit (hd c hc)

theorem withoutLetter_append (h : IsMark m) (s : List Char) :
    withoutLetter (m ++ s) = m ++ s := by
  obtain ⟨x, ds, rfl, hx, _⟩ := h.eq_cons
  rcases hx with rfl | rfl <;> rfl

theorem startsDigit_append (h : IsMark m) (s : List Char) : startsDigit (m ++ s) = false := by
  obtain ⟨x, ds, rfl, hx, _⟩ := h.eq_cons
  rcases hx with rfl | rfl <;> rfl

theorem isName_append (h : IsMark m) (s : List Char) : isName (m ++ s) = s.all isNameChar := by
  have ha := List.all_eq_true.mpr fun _ hc => h.isNameChar_of_mem hc
  obtain ⟨x, ds, rfl, hx, _⟩ := h.eq_cons
  have hm : x ≠ '-' := by rcases hx with rfl | rfl <;> decide
  rw [List.cons_append, isName_of_ne hm, ← List.cons_append, List.all_append, ha, Bool.true_and]

theorem splitCast_append (h : IsMark m) (s : List Char) :
    splitCast (m ++ s) = (splitCast s).map fun p => (m ++ p.1, p.2) := by
  have hc : ':' ∉ m := h.not_mem (by decide)
  clear h
  induction m with
  | nil => simp
  | cons c m ih =>
    rw [List.mem_cons, not_or] at hc
    rw [List.cons_append, splitCast_cons fun h => hc.1 h.1.symm, ih hc.2, Option.map_map]
    rfl

end IsMark

namespace Alike

variable {s t a b : List Char} {c : Char}

theorem symm (h : Alike s t) : Alike t s := by
  induction h with
  | nil => exact .nil
  | char c _ ih => exact .char c ih
  | mark hm hm' _ ih => exact .mark hm' hm ih

theorem nil_left (h : Alike [] t) : t = [] := by
  generalize hs : ([] : List Char) = s at h
  cases h with
  | nil => rfl
  | char => simp at hs
  | mark hm =>
    obtain ⟨x, ds, rfl, _⟩ := hm.eq_cons
    simp at hs

theorem eq_nil_iff (h : Alike s t) : s = [] ↔ t = [] := by
  constructor
  · rintro rfl
    exact h.nil_left
  · rintro rfl
    exact h.symm.nil_left

theorem isEmpty_eq (h : Alike s t) : s.isEmpty = t.isEmpty := by
  rw [Bool.eq_iff_iff, List.isEmpty_iff, List.isEmpty_iff, h.eq_nil_iff]

theorem split (h : Alike (a ++ c :: b) t) (hc : IsOrdinary c) :
    ∃ a' b', t = a' ++ c :: b' ∧ Alike a a' ∧ Alike b b' := by
  generalize hs : a ++ c :: b = s at h
  induction h generalizing a with
  | nil => simp at hs
  | @char x s t h ih =>
    cases a with
    | nil =>
      obtain ⟨rfl, rfl⟩ := List.cons.inj hs
      exact ⟨[], t, rfl, .nil, h⟩
    | cons y a =>
      obtain ⟨rfl, hs'⟩ := List.cons.inj hs
      obtain ⟨a', b', rfl, ha, hb⟩ := ih hs'
      exact ⟨y :: a', b', rfl, .char y ha, hb⟩
  | @mark m m' s t hm hm' h ih =>
    -- The character is not inside the placeholder, so the cut is behind it.
    have hcut : ∃ a₁, a = m ++ a₁ ∧ a₁ ++ c :: b = s := by
      rcases List.append_eq_append_iff.mp hs with ⟨d, rfl, hd⟩ | ⟨d, rfl, hd⟩
      · cases d with
        | nil => exact ⟨[], by simp, by simpa using hd⟩
        | cons x d =>
          obtain ⟨rfl, _⟩ := List.cons.inj hd
          exact absurd (by simp) (hm.not_mem hc)
      · exact ⟨d, rfl, hd.symm⟩
    obtain ⟨a₁, rfl, hs₁⟩ := hcut
    obtain ⟨a', b', rfl, ha, hb⟩ := ih hs₁
    exact ⟨m' ++ a', b', by simp, .mark hm hm' ha, hb⟩

theorem cons_left (h : Alike (c :: s) t) (hc : IsOrdinary c) : ∃ t', t = c :: t' ∧ Alike s t' := by
  obtain ⟨a, b, rfl, ha, hb⟩ := split (a := []) h hc
  obtain rfl := ha.nil_left
  exact ⟨b, rfl, hb⟩

theorem concat_left (h : Alike (s ++ [c]) t) (hc : IsOrdinary c) :
    ∃ t', t = t' ++ [c] ∧ Alike s t' := by
  obtain ⟨a, b, rfl, ha, hb⟩ := h.split hc
  obtain rfl := hb.nil_left
  exact ⟨a, rfl, ha⟩

theorem head?_eq_iff (h : Alike s t) (hc : IsOrdinary c) : s.head? = some c ↔ t.head? = some c := by
  have hl : ∀ {s t}, Alike s t → s.head? = some c → t.head? = some c := by
    intro s t h hs
    obtain ⟨s', rfl⟩ := List.head?_eq_some_iff.mp hs
    obtain ⟨t', rfl, _⟩ := h.cons_left hc
    rfl
  exact ⟨hl h, hl h.symm⟩

theorem all_isNameChar_eq (h : Alike s t) : s.all isNameChar = t.all isNameChar := by
  induction h with
  | nil => rfl
  | char c _ ih => rw [List.all_cons, List.all_cons, ih]
  | mark hm hm' _ ih =>
    rw [List.all_append, List.all_append, ih,
      List.all_eq_true.mpr fun _ h => hm.isNameChar_of_mem h,
      List.all_eq_true.mpr fun _ h => hm'.isNameChar_of_mem h]

theorem startsDigit_eq (h : Alike s t) : startsDigit s = startsDigit t := by
  cases h with
  | nil => rfl
  | char => rfl
  | mark hm hm' => rw [hm.startsDigit_append, hm'.startsDigit_append]

theorem closesAtEnd_eq (h : Alike s t) (depth : Nat) (inQuote : Bool) :
    closesAtEnd depth inQuote s = closesAtEnd depth inQuote t := by
  induction h generalizing depth inQuote with
  | nil => rfl
  | char c h ih => simp only [closesAtEnd, ih, h.isEmpty_eq]
  | mark hm hm' _ ih =>
    rw [closesAtEnd_plain_append fun _ h => hm.isPlain_of_mem h,
      closesAtEnd_plain_append fun _ h => hm'.isPlain_of_mem h, ih]

theorem isGroup_eq (h : Alike s t) : isGroup s = isGroup t := by
  have hopen : IsOrdinary '(' := by decide
  have hh : s.head? == some '(' ↔ t.head? == some '(' := by simpa using h.head?_eq_iff hopen
  rw [Fragment.isGroup_eq, Fragment.isGroup_eq, h.closesAtEnd_eq, Bool.eq_iff_iff.mpr hh]

theorem pairsQuotes_eq (h : Alike s t) (half : Bool) : pairsQuotes half s = pairsQuotes half t := by
  have hq : ∀ {m : List Char}, IsMark m → ∀ c ∈ m, c ≠ '\'' := fun hm c hc =>
    (isPlain_iff.mp (hm.isPlain_of_mem hc)).1
  induction h generalizing half with
  | nil => rfl
  | char c _ ih => simp only [pairsQuotes, ih]
  | mark hm hm' _ ih =>
    rw [pairsQuotes_append (hq hm) hm.ne_nil, pairsQuotes_append (hq hm') hm'.ne_nil, ih]

theorem withoutLetter (h : Alike s t) : Alike (withoutLetter s) (withoutLetter t) := by
  cases h with
  | nil => exact .nil
  | char c h =>
    simp only [Fragment.withoutLetter]
    split
    · exact h
    · exact .char c h
  | mark hm hm' h => rw [hm.withoutLetter_append, hm'.withoutLetter_append]; exact .mark hm hm' h

theorem isConstant_eq (h : Alike s t) : isConstant s = isConstant t := by
  have hq : IsOrdinary '\'' := by decide
  have hl : ∀ {s t}, Alike s t → isConstant s = true → isConstant t = true := by
    intro s t h hs
    obtain ⟨inner, he, hp⟩ := isConstant_iff.mp hs
    have hw := h.withoutLetter
    rw [he] at hw
    obtain ⟨t', ht', hw'⟩ := hw.cons_left hq
    obtain ⟨inner', rfl, hi⟩ := hw'.concat_left hq
    rw [hasPairedQuotes_eq, hi.pairsQuotes_eq, ← hasPairedQuotes_eq] at hp
    exact isConstant_iff.mpr ⟨inner', ht', hp⟩
  exact Bool.eq_iff_iff.mpr ⟨hl h, hl h.symm⟩

/-- A minus sign is part of a number before a digit, and no placeholder begins with one. -/
theorem isName_eq (h : Alike s t) : isName s = isName t := by
  cases h with
  | nil => rfl
  | mark hm hm' h =>
    rw [hm.isName_append, hm'.isName_append, h.all_isNameChar_eq]
  | @char c s t h =>
    by_cases hc : c = '-'
    · subst hc
      rw [isName_minus, isName_minus, h.startsDigit_eq, h.all_isNameChar_eq]
    · rw [isName_of_ne hc, isName_of_ne hc, List.all_cons, List.all_cons, h.all_isNameChar_eq]

theorem splitCast_cases (h : Alike s t) :
    (splitCast s = none ∧ splitCast t = none) ∨
      ∃ p q, splitCast s = some p ∧ splitCast t = some q ∧ Alike p.1 q.1 ∧ Alike p.2 q.2 := by
  induction h with
  | nil => exact .inl ⟨rfl, rfl⟩
  | @char c s t h ih =>
    by_cases hs : c = ':' ∧ s.head? = some ':'
    · obtain ⟨rfl, hs⟩ := hs
      obtain ⟨s', rfl⟩ := List.head?_eq_some_iff.mp hs
      obtain ⟨t', rfl, h'⟩ := h.cons_left (by decide)
      exact .inr ⟨([], s'), ([], t'), rfl, rfl, .nil, h'⟩
    · have ht : ¬ (c = ':' ∧ t.head? = some ':') := by
        rwa [← h.head?_eq_iff (show IsOrdinary ':' by decide)]
      rw [splitCast_cons hs, splitCast_cons ht]
      rcases ih with ⟨h₁, h₂⟩ | ⟨p, q, h₁, h₂, hl, hr⟩
      · simp [h₁, h₂]
      · exact .inr ⟨(c :: p.1, p.2), (c :: q.1, q.2), by simp [h₁], by simp [h₂], .char c hl, hr⟩
  | @mark m m' s t hm hm' _ ih =>
    rw [hm.splitCast_append, hm'.splitCast_append]
    rcases ih with ⟨h₁, h₂⟩ | ⟨p, q, h₁, h₂, hl, hr⟩
    · simp [h₁, h₂]
    · exact .inr ⟨(m ++ p.1, p.2), (m' ++ q.1, q.2), by simp [h₁], by simp [h₂],
        .mark hm hm' hl, hr⟩

theorem beforeStar?_of (h : Alike s t) (he : beforeStar? s = some a) :
    ∃ b, beforeStar? t = some b ∧ Alike a b := by
  obtain rfl := eq_of_beforeStar? he
  rw [← List.singleton_append, ← List.append_assoc] at h
  obtain ⟨t', rfl, h'⟩ := h.concat_left (by decide)
  obtain ⟨b, rfl, hb⟩ := h'.concat_left (by decide)
  exact ⟨b, by simp [beforeStar?], hb⟩

theorem isToken_eq (h : Alike s t) : isToken s = isToken t := by
  have hs : s = ['*'] ↔ t = ['*'] := by
    have hl : ∀ {s t}, Alike s t → s = ['*'] → t = ['*'] := by
      rintro s t h rfl
      obtain ⟨t', rfl, h'⟩ := h.cons_left (by decide)
      rw [h'.nil_left]
    exact ⟨hl h, hl h.symm⟩
  unfold isToken
  simp only [hs]
  split
  · rfl
  · cases hb : beforeStar? s with
    | some a =>
      obtain ⟨b, hb', ha⟩ := h.beforeStar?_of hb
      simp only [hb', ha.isName_eq]
    | none =>
      have hb' : beforeStar? t = none := by
        cases hb' : beforeStar? t with
        | none => rfl
        | some b =>
          obtain ⟨a, ha, _⟩ := h.symm.beforeStar?_of hb'
          simp [hb] at ha
      rcases h.splitCast_cases with ⟨h₁, h₂⟩ | ⟨p, q, h₁, h₂, hl, hr⟩
      · simp only [hb', h₁, h₂, h.isName_eq]
      · simp only [hb', h₁, h₂, hl.isName_eq, hl.isConstant_eq, hr.isName_eq]

/-- Which placeholders stand in a text does not matter for its parentheses. -/
theorem standsAlone_eq (h : Alike s t) : standsAlone s = standsAlone t := by
  unfold standsAlone
  rw [h.isEmpty_eq, h.isToken_eq, h.isConstant_eq, h.isGroup_eq]

end Alike

end SqlExpr.Fragment
