import SqlExpr.Proofs.Composition
import SqlExpr.Proofs.Groups

/-! # Skeletons with closed quotes

When every text of the caller closes its quotes, the holes of a skeleton stand outside of quotes. The
reader of groups then sees no difference between texts that open no group and leave no quote open, so
that such texts can be exchanged in the holes.
-/
namespace SqlExpr
open Fragment

namespace Skeleton

variable {ts : List (List Char)} {k k' : Skeleton} {inQuote : Bool}

/-- No hole stands inside quotes, and at the end all quotes are closed. -/
def QuotesClosed : Bool → Skeleton → Prop
  | inQuote, [] => inQuote = false
  | inQuote, some c :: k => QuotesClosed (if c = '\'' then !inQuote else inQuote) k
  | inQuote, none :: k => inQuote = false ∧ QuotesClosed false k

theorem quotesClosed_ofText_append {s : String} (hk : QuotesClosed false k)
    (hs : (s.toList.count '\'' + inQuote.toNat) % 2 = 0) :
    QuotesClosed inQuote (ofText s ++ k) := by
  unfold ofText
  generalize s.toList = cs at hs
  induction cs generalizing inQuote with
  | nil =>
    cases inQuote with
    | false => exact hk
    | true => simp at hs
  | cons c cs ih =>
    apply ih
    by_cases hc : c = '\''
    · subst hc
      rw [count_quote_cons] at hs
      rwa [if_pos rfl]
    · rw [if_neg hc]
      rwa [List.count_cons_of_ne hc] at hs

theorem QuotesClosed.append (hk : QuotesClosed inQuote k) (hk' : QuotesClosed false k') :
    QuotesClosed inQuote (k ++ k') := by
  induction k generalizing inQuote with
  | nil =>
    obtain rfl : inQuote = false := hk
    exact hk'
  | cons c k ih =>
    cases c with
    | some c => exact ih hk
    | none => exact ⟨hk.1, ih hk.2⟩

theorem composes_quotesClosed :
    Composes (fun s => s.toList.count '\'' % 2 = 0) (QuotesClosed false) where
  keyword h := by
    have hq : '\'' ∉ _ := fun hm => absurd (List.all_eq_true.mp h _ hm) (by decide)
    rw [List.count_eq_zero.mpr hq]
  append hs ht := by
    rw [String.toList_append, List.count_append]
    omega
  text hs := by
    have h := @quotesClosed_ofText_append [] false _ rfl hs
    rwa [List.append_nil] at h
  hole := ⟨rfl, rfl⟩
  parenthesized hk := by
    have hc : QuotesClosed false (ofText ")") := by simp [ofText, QuotesClosed]
    exact (quotesClosed_ofText_append hk (by simp)).append hc
  before hs hk := quotesClosed_ofText_append hk hs
  after hk hk' _ := hk.append hk'

theorem count_fill (hk : QuotesClosed inQuote k) (ht : ∀ t ∈ ts, IsSealed t)
    (hl : ts.length = k.holes) : ((fill ts k).count '\'' + inQuote.toNat) % 2 = 0 := by
  induction k generalizing ts inQuote with
  | nil =>
    obtain rfl : inQuote = false := hk
    rfl
  | cons c k ih =>
    cases c with
    | some c =>
      have h := ih hk ht (by simpa [holes] using hl)
      rw [fill]
      by_cases hc : c = '\''
      · subst hc
        rw [if_pos rfl] at h
        rwa [count_quote_cons]
      · rw [if_neg hc] at h
        rwa [List.count_cons_of_ne hc]
    | none =>
      obtain ⟨rfl, hk⟩ := hk
      cases ts with
      | nil => simp [holes] at hl
      | cons t ts =>
        have h := ih hk (fun u hu => ht u (List.mem_cons_of_mem _ hu)) (by simpa [holes] using hl)
        have hq := (ht t List.mem_cons_self).quotes
        rw [fill, List.count_append]
        omega

theorem fill_eq_nil_iff_of_sealed (ht : ∀ t ∈ ts, IsSealed t) (hl : ts.length = k.holes) :
    fill ts k = [] ↔ k = [] :=
  fill_eq_nil_iff hl fun t hm => (ht t hm).ne_nil

theorem closesAtEnd_fill (hk : QuotesClosed inQuote k) (ht : ∀ t ∈ ts, IsSealed t)
    (hl : ts.length = k.holes) (depth : Nat) :
    closesAtEnd depth inQuote (fill ts k) = closesAtEnd depth inQuote k.shown := by
  induction k generalizing ts inQuote depth with
  | nil => rfl
  | cons c k ih =>
    cases c with
    | some c =>
      have hl : ts.length = holes k := by simpa [holes] using hl
      have he : (fill ts k).isEmpty = (shown k).isEmpty := by
        rw [Bool.eq_iff_iff, List.isEmpty_iff, List.isEmpty_iff, shown_eq_nil_iff,
          fill_eq_nil_iff_of_sealed ht hl]
      have hi := fun depth => ih hk ht hl depth
      show closesAtEnd depth inQuote (c :: fill ts k) = closesAtEnd depth inQuote (c :: shown k)
      unfold closesAtEnd
      by_cases hc : c = '\''
      · simp only [hc, if_true] at hi ⊢
        exact hi depth
      · simp only [hc, if_false] at hi ⊢
        cases inQuote with
        | true => exact hi depth
        | false => simp only [hi, he, Bool.false_eq_true, if_false]
    | none =>
      obtain ⟨rfl, hk⟩ := hk
      cases ts with
      | nil => simp [holes] at hl
      | cons t ts =>
        have hi := ih hk (fun u hu => ht u (List.mem_cons_of_mem _ hu)) (by simpa [holes] using hl) depth
        have hq : closesAtEnd depth false ('?' :: shown k) = closesAtEnd depth false (shown k) :=
          closesAtEnd_plain_cons rfl depth false _
        rw [fill, (ht t List.mem_cons_self).closes, hi]
        exact hq.symm

theorem head?_fill (ht : ∀ t ∈ ts, IsSealed t) (hl : ts.length = k.holes) :
    (fill ts k).head? = some '(' ↔ k.shown.head? = some '(' := by
  cases k with
  | nil => simp [fill, shown]
  | cons c k =>
    cases c with
    | some c => simp [fill, shown]
    | none =>
      cases ts with
      | nil => simp [holes] at hl
      | cons t ts =>
        have h := ht t List.mem_cons_self
        simp [fill, shown, h.head, h.ne_nil]

/-- Whether a skeleton is a group cannot depend on what its holes are filled with. -/
theorem isGroup_fill (hk : QuotesClosed false k) (ht : ∀ t ∈ ts, IsSealed t)
    (hl : ts.length = k.holes) : isGroup (fill ts k) = isGroup k.shown := by
  have hh : (fill ts k).head? == some '(' ↔ k.shown.head? == some '(' := by
    simpa using head?_fill ht hl
  rw [isGroup_eq, isGroup_eq, closesAtEnd_fill hk ht hl, Bool.eq_iff_iff.mpr hh]

theorem isSealed_question : IsSealed ['?'] := isSealed_of_plain (by decide) rfl

theorem shown_eq_fill (k : Skeleton) : k.shown = fill (List.replicate k.holes ['?']) k := by
  induction k with
  | nil => rfl
  | cons c k ih =>
    cases c with
    | some c => simpa [shown, fill, holes] using ih
    | none => simpa [shown, fill, holes, List.replicate_succ] using ih

/-- A text behind an opening parenthesis is a group for each filling or for none. -/
theorem standsAlone_fill_open (hk : QuotesClosed false (some '(' :: k)) (ht : ∀ t ∈ ts, IsSealed t)
    (hl : ts.length = holes (some '(' :: k)) :
    standsAlone (fill ts (some '(' :: k)) = standsAlone (shown (some '(' :: k)) := by
  have hg := isGroup_fill hk ht hl
  have hs : shown (some '(' :: k) = '(' :: shown k := rfl
  rw [fill] at hg ⊢
  rw [hs] at hg ⊢
  rw [standsAlone_of_open, standsAlone_of_open, hg]

theorem standsAlone_fill_separated {c : Char} (hc : isSeparator c = true)
    (hk : QuotesClosed false k) (hw : QuotesClosed false (k ++ some c :: k'))
    (ht : ∀ t ∈ ts, IsSealed t) (hl : ts.length = holes (k ++ some c :: k')) :
    standsAlone (fill ts (k ++ some c :: k')) = standsAlone (shown (k ++ some c :: k')) := by
  have hg := isGroup_fill hw ht hl
  have hh : (ts.take k.holes).length = k.holes := by
    rw [holes_append] at hl
    rw [List.length_take]
    omega
  have hf := @fill_append (ts.take k.holes) (ts.drop k.holes) k (some c :: k') hh
  rw [List.take_append_drop, fill] at hf
  have hs : shown (k ++ some c :: k') = shown k ++ c :: shown k' := by simp [shown]
  have hfill := count_fill hk (fun t hm => ht t (List.mem_of_mem_take hm)) hh
  have hshown := @count_fill (List.replicate k.holes ['?']) k false hk
    (fun t hm => List.eq_of_mem_replicate hm ▸ isSealed_question) List.length_replicate
  rw [← shown_eq_fill] at hshown
  rw [hf, hs] at hg ⊢
  rw [standsAlone_separated hfill hc, standsAlone_separated hshown hc, hg]

end Skeleton

end SqlExpr
