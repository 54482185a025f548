import Mathlib.Data.List.Infix
import SqlExpr.Proofs.Assembly
import SqlExpr.Proofs.BoundText
import SqlExpr.Proofs.Literals

/-! # Balanced texts

A text is balanced when it closes its quotes and its parentheses outside of quotes match. Balanced texts
may be put next to each other and into parentheses; an open group reads over them, so that a balanced
text in parentheses is one group. Literals and placeholders are balanced, whatever they stand for, and
with them every text that is put together from balanced ones.
-/
namespace SqlExpr.Fragment
open Text

/-- The characters outside of quotes, where reading begins inside a quoted text or not. -/
def unquoted : Bool → List Char → List Char
  | _, [] => []
  | inQuote, c :: cs =>
    if c = '\'' then unquoted (!inQuote) cs
    else if inQuote then unquoted true cs
    else c :: unquoted false cs

/-- With some groups open in front of it, no beginning of the text closes more than are open. -/
def StaysOpen (depth : Nat) (cs : List Char) : Prop :=
  ∀ s, s <+: cs → s.count ')' ≤ s.count '(' + depth

/-- No beginning closes more parentheses than it opens, and at the end all are closed. -/
structure IsMatched (cs : List Char) : Prop where
  opened : StaysOpen 0 cs
  closed : cs.count ')' = cs.count '('

/-- An even number of quotes, and matching parentheses outside of them. -/
structure IsBalanced (cs : List Char) : Prop where
  quotes : cs.count '\'' % 2 = 0
  matched : IsMatched (unquoted false cs)

instance (cs : List Char) : Decidable (IsMatched cs) :=
  decidable_of_iff ((∀ s ∈ cs.inits, s.count ')' ≤ s.count '(') ∧ cs.count ')' = cs.count '(')
    ⟨fun h => ⟨fun s hs => h.1 s ((List.mem_inits s cs).mpr hs), h.2⟩,
      fun h => ⟨fun s hs => h.opened s ((List.mem_inits s cs).mp hs), h.closed⟩⟩

instance (cs : List Char) : Decidable (IsBalanced cs) :=
  decidable_of_iff (cs.count '\'' % 2 = 0 ∧ IsMatched (unquoted false cs))
    ⟨fun h => ⟨h.1, h.2⟩, fun h => ⟨h.quotes, h.matched⟩⟩

@[simp] theorem unquoted_quote (inQuote : Bool) (cs : List Char) :
    unquoted inQuote ('\'' :: cs) = unquoted (!inQuote) cs := by
  simp [unquoted]

theorem unquoted_inside {c : Char} (h : c ≠ '\'') (cs : List Char) :
    unquoted true (c :: cs) = unquoted true cs := by
  simp [unquoted, h]

theorem unquoted_cons {c : Char} (h : c ≠ '\'') (cs : List Char) :
    unquoted false (c :: cs) = c :: unquoted false cs := by
  simp [unquoted, h]

theorem unquoted_append {s : List Char} {inQuote : Bool}
    (h : (s.count '\'' + inQuote.toNat) % 2 = 0) (t : List Char) :
    unquoted inQuote (s ++ t) = unquoted inQuote s ++ unquoted false t := by
  induction s generalizing inQuote with
  | nil =>
    cases inQuote with
    | false => rfl
    | true => simp at h
  | cons c s ih =>
    by_cases hc : c = '\''
    · subst hc
      rw [count_quote_cons] at h
      simpa [unquoted] using ih h
    · rw [List.count_cons_of_ne hc] at h
      have hi := ih h
      cases inQuote <;> simpa [unquoted, hc] using hi

theorem unquoted_of_no_quote {s : List Char} (h : ∀ c ∈ s, c ≠ '\'') : unquoted false s = s := by
  induction s with
  | nil => rfl
  | cons c s ih =>
    have hi := ih fun d hd => h d (List.mem_cons_of_mem _ hd)
    simp [unquoted, h c List.mem_cons_self, hi]

theorem unquoted_doubled_append (s cs : List Char) :
    unquoted true (doubled '\'' s ++ cs) = unquoted true cs := by
  induction s with
  | nil => rfl
  | cons c s ih => by_cases h : c = '\'' <;> simp [doubled, h, unquoted, ih]

theorem unquoted_quoted (s : List Char) : unquoted false (quoted '\'' s) = [] := by
  simp [quoted, unquoted, unquoted_doubled_append]

namespace StaysOpen

variable {depth : Nat} {c : Char} {cs s t : List Char}

theorem of_count_le (h : s.count ')' ≤ depth) : StaysOpen depth s := by
  intro p hp
  have hl := hp.sublist.count_le ')'
  omega

theorem mono {d : Nat} (hs : StaysOpen depth s) (h : depth ≤ d) : StaysOpen d s := by
  intro p hp
  have ho := hs p hp
  omega

theorem append {d : Nat} (hs : StaysOpen depth s) (hd : s.count '(' + depth = s.count ')' + d)
    (ht : StaysOpen d t) : StaysOpen depth (s ++ t) := by
  intro p hp
  rcases List.prefix_or_prefix_of_prefix hp (List.prefix_append s t) with hl | ⟨q, rfl⟩
  · exact hs p hl
  · have hq := ht q ((List.prefix_append_right_inj s).mp hp)
    rw [List.count_append, List.count_append]
    omega

theorem cons (h : StaysOpen depth (c :: cs)) (hs : s <+: cs) :
    (c :: s).count ')' ≤ (c :: s).count '(' + depth :=
  h (c :: s) ((List.prefix_cons_inj c).mpr hs)

theorem opening (h : StaysOpen depth ('(' :: cs)) : StaysOpen (depth + 1) cs := by
  intro s hs
  have hc := h.cons hs
  rw [List.count_cons_of_ne (by decide), List.count_cons_self] at hc
  omega

theorem closing (h : StaysOpen depth (')' :: cs)) : ∃ d, depth = d + 1 ∧ StaysOpen d cs := by
  have hd : 1 ≤ depth := by simpa using h.cons (s := []) List.nil_prefix
  refine ⟨depth - 1, by omega, fun s hs => ?_⟩
  have hc := h.cons hs
  rw [List.count_cons_self, List.count_cons_of_ne (by decide)] at hc
  omega

theorem other (h : StaysOpen depth (c :: cs)) (ho : c ≠ '(') (hc : c ≠ ')') : StaysOpen depth cs := by
  intro s hs
  have hs := h.cons hs
  rwa [List.count_cons_of_ne hc, List.count_cons_of_ne ho] at hs

end StaysOpen

namespace IsMatched

variable {s t : List Char}

theorem of_no_parenthesis (ho : '(' ∉ s) (hc : ')' ∉ s) : IsMatched s := by
  have hz := List.count_eq_zero.mpr hc
  exact ⟨.of_count_le hz.le, by rw [hz, List.count_eq_zero.mpr ho]⟩

theorem append (hs : IsMatched s) (ht : IsMatched t) : IsMatched (s ++ t) := by
  constructor
  · exact hs.opened.append (by rw [hs.closed]) ht.opened
  · rw [List.count_append, List.count_append, hs.closed, ht.closed]

theorem parenthesized (hs : IsMatched s) : IsMatched ('(' :: (s ++ [')'])) := by
  constructor
  · have hclose : StaysOpen 1 (s ++ [')']) :=
      (hs.opened.mono (Nat.zero_le 1)).append (by rw [hs.closed]) (.of_count_le (by decide))
    have hopen : StaysOpen 0 ['('] := .of_count_le (by decide)
    exact hopen.append (by decide) hclose
  · simp [List.count_append, hs.closed]

end IsMatched

namespace IsBalanced

variable {s t : List Char}

theorem of_plain (h : ∀ c ∈ s, isPlain c = true) : IsBalanced s := by
  have hp := fun c hc => isPlain_iff.mp (h c hc)
  constructor
  · rw [List.count_eq_zero.mpr fun hm => (hp _ hm).1 rfl]
  · rw [unquoted_of_no_quote fun c hc => (hp c hc).1]
    exact .of_no_parenthesis (fun hm => (hp _ hm).2.1 rfl) fun hm => (hp _ hm).2.2 rfl

theorem quoted (s : List Char) : IsBalanced (Text.quoted '\'' s) := by
  refine ⟨(isSealed_quoted s).quotes, ?_⟩
  rw [unquoted_quoted]
  exact .of_no_parenthesis (by simp) (by simp)

theorem append (hs : IsBalanced s) (ht : IsBalanced t) : IsBalanced (s ++ t) := by
  constructor
  · have h₁ := hs.quotes
    have h₂ := ht.quotes
    rw [List.count_append]
    omega
  · rw [unquoted_append (by simpa using hs.quotes)]
    exact hs.matched.append ht.matched

theorem parenthesized (hs : IsBalanced s) : IsBalanced ('(' :: (s ++ [')'])) := by
  constructor
  · simpa [List.count_append] using hs.quotes
  · have hu : unquoted false ('(' :: (s ++ [')'])) = '(' :: (unquoted false s ++ [')']) := by
      have ha := @unquoted_append s false (by simpa using hs.quotes) [')']
      simpa [unquoted] using ha
    rw [hu]
    exact hs.matched.parenthesized

end IsBalanced

/-- The reader goes over a text that closes its quotes and only groups that are open. -/
theorem closesAtEnd_append {t : List Char} {inQuote : Bool} {depth : Nat} (cs : List Char)
    (hq : (t.count '\'' + inQuote.toNat) % 2 = 0) (ho : StaysOpen depth (unquoted inQuote t)) :
    closesAtEnd (depth + 1) inQuote (t ++ cs) =
      closesAtEnd (depth + 1 + (unquoted inQuote t).count '(' - (unquoted inQuote t).count ')')
        false cs := by
  induction inQuote, t using reading_induction generalizing depth with
  | nil inQuote =>
    cases inQuote with
    | false => rfl
    | true => simp at hq
  | quote inQuote t ih =>
    rw [count_quote_cons] at hq
    rw [unquoted_quote] at ho ⊢
    rw [List.cons_append, closesAtEnd_quote, ih hq ho]
  | inside c t hc ih =>
    rw [List.count_cons_of_ne hc] at hq
    rw [unquoted_inside hc] at ho ⊢
    rw [List.cons_append, closesAtEnd_in_quote hc, ih hq ho]
  | opening t ih =>
    rw [unquoted_cons (by decide)] at ho ⊢
    rw [List.count_cons_of_ne (by decide)] at hq
    rw [List.cons_append, closesAtEnd_open, ih hq ho.opening, List.count_cons_self,
      List.count_cons_of_ne (by decide)]
    congr 1
    omega
  | closing t ih =>
    rw [unquoted_cons (by decide)] at ho ⊢
    rw [List.count_cons_of_ne (by decide)] at hq
    obtain ⟨d, rfl, hd⟩ := ho.closing
    rw [List.cons_append, closesAtEnd_close, ih hq hd, List.count_cons_self,
      List.count_cons_of_ne (by decide)]
    congr 1
    omega
  | plain c t hc ih =>
    obtain ⟨hn, hopen, hclose⟩ := isPlain_iff.mp hc
    rw [unquoted_cons hn] at ho ⊢
    rw [List.count_cons_of_ne hn] at hq
    rw [List.cons_append, closesAtEnd_plain_cons hc, ih hq (ho.other hopen hclose),
      List.count_cons_of_ne hopen, List.count_cons_of_ne hclose]

theorem IsBalanced.isNeutral {t : List Char} (h : IsBalanced t) : IsNeutral t := by
  intro depth cs
  have ha := closesAtEnd_append cs (by simpa using h.quotes) (h.matched.opened.mono depth.zero_le)
  rw [ha, h.matched.closed, Nat.add_sub_cancel]

theorem isGroup_of_isBalanced {t : List Char} (h : IsBalanced t) :
    isGroup ('(' :: (t ++ [')'])) = true := by
  rw [isGroup_eq, closesAtEnd_open, h.isNeutral]
  rfl

theorem isGroup_parenthesized {s : String} (h : IsBalanced s.toList) :
    isGroup (parenthesized s).toList = true := by
  simpa [parenthesized] using isGroup_of_isBalanced h

theorem operand_parenthesized {s : String} (h : IsBalanced s.toList) :
    operand (parenthesized s) = parenthesized s := by
  apply operand_of_standsAlone
  simp [standsAlone, isGroup_parenthesized h]

theorem operand_operand {s : String} (h : IsBalanced s.toList) : operand (operand s) = operand s := by
  cases hs : standsAlone s.toList with
  | true => rw [operand_of_standsAlone hs, operand_of_standsAlone hs]
  | false => rw [operand_of_not_standsAlone hs, operand_parenthesized h]

end SqlExpr.Fragment

namespace SqlExpr

open Fragment

theorem LiteralForm.isBalanced {v : Value} {t : List Char} (h : LiteralForm v t) : IsBalanced t := by
  cases h with
  | word h =>
    simp only [List.mem_cons, List.not_mem_nil, or_false] at h
    rcases h with rfl | rfl | rfl <;> exact .of_plain (List.all_eq_true.mp rfl)
  | number h => exact .of_plain h.plain
  | quoted s => exact .quoted s
  | bytes s => exact (IsBalanced.of_plain (s := ['X']) (List.all_eq_true.mp rfl)).append (.quoted s)
  | bytea _ => exact (IsBalanced.quoted _).append (.of_plain (List.all_eq_true.mp rfl))

theorem Mode.isBalanced_spelling (d : Dialect) (mode : Mode) (n : Nat) (v : Value) :
    IsBalanced (mode.spelling d n v).toList := by
  cases mode with
  | literal => exact (LiteralForm.of_dialect d v).isBalanced
  | bind sink => exact .of_plain fun _ hc => (d.isMark_placeholder n).isPlain_of_mem hc

theorem assembles_isBalanced (d : Dialect) (mode : Mode) :
    Assembles (mode.spelling d) fun s => IsBalanced s.toList where
  keyword h := by
    refine .of_plain fun c hc => isPlain_iff.mpr ⟨?_, ?_, ?_⟩ <;> rintro rfl <;>
      exact absurd (List.all_eq_true.mp h _ hc) (by decide)
  append hs ht := by
    rw [String.toList_append]
    exact hs.append ht
  parenthesized hs := by simpa [Fragment.parenthesized] using hs.parenthesized
  value := mode.isBalanced_spelling d

theorem Expr.isBalanced_textAt {e : Expr} (h : ∀ s ∈ e.callerTexts, IsBalanced s.toList) (d : Dialect)
    (mode : Mode) (p : Position) (n : Nat) : IsBalanced (textAt (mode.spelling d) e p n).toList :=
  textAt_of_assembles (assembles_isBalanced d mode) e p n h

end SqlExpr
