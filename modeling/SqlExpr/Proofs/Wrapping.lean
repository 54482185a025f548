import Mathlib.Logic.Function.Iterate
import SqlExpr.Proofs.Balance

/-! # Wrapping twice

The reader of groups accepts a text in parentheses exactly when the text between them is balanced. So a
text that got parentheses as an operand gets a second pair as an operand again exactly when it is not
balanced, and the operand of a balanced text stays as it is from then on.
-/
namespace SqlExpr.Fragment
open Text

variable {depth : Nat} {inQuote : Bool} {c : Char} {s t : List Char}

theorem StaysOpen.of_prefix (h : StaysOpen depth t) (hs : s <+: t) : StaysOpen depth s :=
  fun p hp => h p (hp.trans hs)

/-- Begun inside a quoted text or not, the text closes its quotes and as many groups as are open in front
of it, none of them and no other before its time. -/
structure ClosesGroups (depth : Nat) (inQuote : Bool) (t : List Char) : Prop where
  quotes : (t.count '\'' + inQuote.toNat) % 2 = 0
  opened : StaysOpen depth (unquoted inQuote t)
  closed : (unquoted inQuote t).count ')' = (unquoted inQuote t).count '(' + depth

namespace ClosesGroups

theorem nil : ClosesGroups 0 false [] := ⟨rfl, .of_count_le (Nat.le_refl 0), rfl⟩

theorem quote (h : ClosesGroups depth (!inQuote) t) : ClosesGroups depth inQuote ('\'' :: t) := by
  refine ⟨?_, ?_, ?_⟩
  · rw [count_quote_cons]
    exact h.quotes
  · rw [unquoted_quote]
    exact h.opened
  · rw [unquoted_quote]
    exact h.closed

theorem inside (hc : c ≠ '\'') (h : ClosesGroups depth true t) : ClosesGroups depth true (c :: t) := by
  refine ⟨?_, ?_, ?_⟩
  · rw [List.count_cons_of_ne hc]
    exact h.quotes
  · rw [unquoted_inside hc]
    exact h.opened
  · rw [unquoted_inside hc]
    exact h.closed

theorem opening (h : ClosesGroups (depth + 1) false t) : ClosesGroups depth false ('(' :: t) := by
  have hopen : StaysOpen depth ['('] := .of_count_le (Nat.zero_le depth)
  have hc := h.closed
  refine ⟨?_, ?_, ?_⟩
  · simpa using h.quotes
  · rw [unquoted_cons (by decide)]
    exact hopen.append (by simp; omega) h.opened
  · rw [unquoted_cons (by decide), List.count_cons_of_ne (by decide), List.count_cons_self]
    omega

theorem closing (h : ClosesGroups depth false t) : ClosesGroups (depth + 1) false (')' :: t) := by
  have hclose : StaysOpen (depth + 1) [')'] := .of_count_le (by simp)
  have hc := h.closed
  refine ⟨?_, ?_, ?_⟩
  · simpa using h.quotes
  · rw [unquoted_cons (by decide)]
    exact hclose.append (by simp; omega) h.opened
  · rw [unquoted_cons (by decide), List.count_cons_self, List.count_cons_of_ne (by decide)]
    omega

theorem plain (hc : isPlain c = true) (h : ClosesGroups depth false t) :
    ClosesGroups depth false (c :: t) := by
  obtain ⟨hq, ho, hcl⟩ := isPlain_iff.mp hc
  have hone : StaysOpen depth [c] := .of_count_le (by simp [hcl])
  refine ⟨?_, ?_, ?_⟩
  · rw [List.count_cons_of_ne hq]
    exact h.quotes
  · rw [unquoted_cons hq]
    exact hone.append (by simp [ho, hcl]) h.opened
  · rw [unquoted_cons hq, List.count_cons_of_ne hcl, List.count_cons_of_ne ho]
    exact h.closed

theorem isBalanced_iff : ClosesGroups 0 false t ↔ IsBalanced t := by
  constructor
  · intro h
    exact ⟨by simpa using h.quotes, h.opened, h.closed⟩
  · intro h
    exact ⟨by simpa using h.quotes, h.matched.opened, h.matched.closed⟩

end ClosesGroups

/-- Inside of groups, the reader succeeds on the texts that close all these groups, the outermost one by
their last character. -/
theorem closesAtEnd_succ_iff {cs : List Char} :
    closesAtEnd (depth + 1) inQuote cs = true ↔ ∃ t, cs = t ++ [')'] ∧ ClosesGroups depth inQuote t := by
  constructor
  · intro h
    induction inQuote, cs using reading_induction generalizing depth with
    | nil => simp [closesAtEnd] at h
    | quote inQuote cs ih =>
      rw [closesAtEnd_quote] at h
      obtain ⟨t, rfl, ht⟩ := ih h
      exact ⟨'\'' :: t, rfl, ht.quote⟩
    | inside c cs hc ih =>
      rw [closesAtEnd_in_quote hc] at h
      obtain ⟨t, rfl, ht⟩ := ih h
      exact ⟨c :: t, rfl, ht.inside hc⟩
    | opening cs ih =>
      rw [closesAtEnd_open] at h
      obtain ⟨t, rfl, ht⟩ := ih h
      exact ⟨'(' :: t, rfl, ht.opening⟩
    | closing cs ih =>
      cases depth with
      | zero =>
        obtain rfl : cs = [] := by
          have he : cs.isEmpty = true := by simp_all [closesAtEnd]
          simpa using he
        exact ⟨[], rfl, .nil⟩
      | succ depth =>
        rw [closesAtEnd_close] at h
        obtain ⟨t, rfl, ht⟩ := ih h
        exact ⟨')' :: t, rfl, ht.closing⟩
    | plain c cs hc ih =>
      rw [closesAtEnd_plain_cons hc] at h
      obtain ⟨t, rfl, ht⟩ := ih h
      exact ⟨c :: t, rfl, ht.plain hc⟩
  · rintro ⟨t, rfl, ht⟩
    have hd : depth + 1 + (unquoted inQuote t).count '(' - (unquoted inQuote t).count ')' = 1 := by
      have hc := ht.closed
      omega
    rw [closesAtEnd_append [')'] ht.quotes ht.opened, hd]
    rfl

/-- What is read to the end keeps its groups open up to any place in it. -/
theorem staysOpen_of_closesAtEnd {cs : List Char} (hq : (t.count '\'' + inQuote.toNat) % 2 = 0)
    (hn : cs ≠ []) (h : closesAtEnd (depth + 1) inQuote (t ++ cs) = true) :
    StaysOpen depth (unquoted inQuote t) := by
  obtain ⟨u, hu, hc⟩ := closesAtEnd_succ_iff.mp h
  obtain ⟨ds, d, rfl⟩ := (List.eq_nil_or_concat cs).resolve_left hn
  rw [List.concat_eq_append, ← List.append_assoc] at hu
  have ho := hc.opened
  rw [← (List.append_inj' hu rfl).1, unquoted_append hq] at ho
  exact ho.of_prefix (List.prefix_append _ _)

theorem isGroup_cons_append_iff : isGroup ('(' :: (t ++ [')'])) = true ↔ IsBalanced t := by
  rw [isGroup_eq, closesAtEnd_open, ← ClosesGroups.isBalanced_iff]
  simp [closesAtEnd_succ_iff]

theorem standsAlone_parenthesized (s : String) :
    standsAlone (parenthesized s).toList = true ↔ IsBalanced s.toList := by
  have hs : (parenthesized s).toList = '(' :: (s.toList ++ [')']) := by simp [parenthesized]
  rw [hs, standsAlone_of_open, isGroup_cons_append_iff]

theorem standsAlone_iff {cs : List Char} :
    standsAlone cs = true ↔
      cs = [] ∨ isToken cs = true ∨ isConstant cs = true ∨ isGroup cs = true := by
  simp [standsAlone, or_assoc]

theorem iterate_operand {s : String} (h : IsBalanced s.toList) (n : Nat) :
    operand^[n + 1] s = operand s := by
  induction n with
  | zero => rfl
  | succ n ih => rw [Function.iterate_succ_apply', ih, operand_operand h]

/-- The operand of a text is its own operand exactly when it is the text itself or the text is balanced.
The operand of a balanced text is empty, one token, one quoted constant or one group, and it gets no
second pair of parentheses however often it becomes an operand again. -/
theorem operand_idempotent_iff_balanced (s : String) :
    (operand (operand s) = operand s ↔ operand s = s ∨ IsBalanced s.toList) ∧
      (IsBalanced s.toList →
        (operand s = "" ∨ isToken (operand s).toList = true ∨ isConstant (operand s).toList = true ∨
          isGroup (operand s).toList = true) ∧
        ∀ n, operand^[n + 1] s = operand s) := by
  refine ⟨?_, fun h => ⟨?_, iterate_operand h⟩⟩
  · rw [operand_eq_self_iff, operand_eq_self_iff]
    cases hs : standsAlone s.toList with
    | true => simp [operand_of_standsAlone hs, hs]
    | false => simp [operand_of_not_standsAlone hs, standsAlone_parenthesized]
  · rw [← String.toList_eq_nil_iff, ← standsAlone_iff, ← operand_eq_self_iff]
    exact operand_operand h

/-- A group with something behind it and a constant that contains a parenthesis. -/
theorem operand_idempotent_iff_balanced_for_quoted_parenthesis :
    let s := "(é) || ')''' || 日"
    IsBalanced s.toList ∧ operand s = "((é) || ')''' || 日)" ∧
      isGroup (operand s).toList = true ∧ operand^[3] s = operand s ∧
      operand (operand "a = ') OR (b'") = operand "a = ') OR (b'" ∧
      operand (operand "a) OR (b") ≠ operand "a) OR (b" := by
  intro s
  have hb : IsBalanced s.toList := by decide
  have ho : operand s = "((é) || ')''' || 日)" := by decide +kernel
  have h := (operand_idempotent_iff_balanced s).2 hb
  refine ⟨hb, ho, by rw [ho]; decide +kernel, h.2 2, ?_, ?_⟩
  · exact (operand_idempotent_iff_balanced _).1.mpr (.inr (by decide))
  · exact fun he => absurd ((operand_idempotent_iff_balanced _).1.mp he) (by decide +kernel)

end SqlExpr.Fragment
