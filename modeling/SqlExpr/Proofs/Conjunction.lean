import Mathlib.Data.List.Induction
import SqlExpr.Expr.KeyFilter
import SqlExpr.Expr.Qualifiers
import SqlExpr.Proofs.Parts
import SqlExpr.Render.Frame

/-! # Filters by key as conjunctions

A filter by key keeps the key alone. Its text, its constants and its qualifiers are nevertheless those
of the conjunction that it stands for, which is an operator application over equalities.
-/
namespace SqlExpr

namespace KeyFilter

/-- The conjunction begins with the condition on the first part and grows by one condition with each
further part. -/
theorem conjunction_induction (f : KeyFilter) {P : List (String × Value) → Expr → Prop}
    (one : ∀ part, P [part] (condition f.key.table part))
    (more : ∀ parts e part, parts ≠ [] → P parts e →
      P (parts ++ [part]) (.binary e "AND" (condition f.key.table part))) :
    P f.key.parts f.conjunction := by
  have hall : ∀ parts : List (String × Value), parts ≠ [] →
      let e := parts.foldl (fun e part => e.and (condition f.key.table part)) .empty
      e.isEmpty = false ∧ P parts e := by
    intro parts
    induction parts using List.reverseRecOn with
    | nil => exact fun h => absurd rfl h
    | append_singleton parts part ih =>
      intro _ e
      by_cases hn : parts = []
      · subst hn
        exact ⟨rfl, one part⟩
      · obtain ⟨he, hp⟩ := ih hn
        simp only [e, List.foldl_append, List.foldl_cons, List.foldl_nil]
        rw [Expr.and, Expr.combine_of_not_isEmpty he rfl]
        exact ⟨rfl, more parts _ part hn hp⟩
  exact (hall f.key.parts f.parts_ne_nil).2

theorem conjunction_eq_binary (f : KeyFilter) :
    ∃ left op right, f.conjunction = .binary left op right := by
  refine f.conjunction_induction (P := fun _ e => ∃ left op right, e = .binary left op right) ?_ ?_
  · intro part
    exact ⟨_, _, _, rfl⟩
  · intro _ e part _ _
    exact ⟨_, _, _, rfl⟩

end KeyFilter

namespace Expr

theorem constants_condition (table : String) (part : String × Value) :
    (KeyFilter.condition table part).constants = [part.2] := by
  simp [KeyFilter.condition, qualified, constants]

theorem qualifiers_condition (table : String) (part : String × Value) :
    (KeyFilter.condition table part).qualifiers = qualifier (Word.ofText? table) := by
  simp [KeyFilter.condition, qualified, qualifiers]

theorem qualifiers_conjunction (f : KeyFilter) :
    f.conjunction.qualifiers = (keyFilter f).qualifiers := by
  rw [qualifiers, KeyFilter.qualifiers]
  refine f.conjunction_induction
    (P := fun parts e => e.qualifiers = parts.flatMap fun _ => qualifier (Word.ofText? f.key.table)) ?_ ?_
  · intro part
    simp [qualifiers_condition]
  · intro parts e part _ he
    rw [qualifiers, he, qualifiers_condition, List.flatMap_append]
    simp

/-- The caller of a filter by key also gives the texts of its conjunction, but for the two operators
and the aliases that are not there. -/
theorem callerTexts_conjunction (f : KeyFilter) {s : String} (hs : s ∈ f.conjunction.callerTexts) :
    s ∈ (keyFilter f).callerTexts ∨ s ∈ ["", "=", "AND"] := by
  have hc : ∀ part : String × Value, ∀ s ∈ (KeyFilter.condition f.key.table part).callerTexts,
      s ∈ [f.key.table, part.1] ∨ s ∈ ["", "=", "AND"] := by
    intro part s hs
    simp only [KeyFilter.condition, qualified, callerTexts, parts, ownTexts, List.flatMap_cons,
      List.flatMap_append, List.flatMap_nil, List.mem_append, List.mem_cons, List.not_mem_nil,
      or_false, Word.textD_ofText?, Word.textD_none] at hs
    rcases hs with rfl | rfl | rfl | rfl <;> simp
  have hall : ∀ s ∈ f.conjunction.callerTexts,
      (s = f.key.table ∨ s ∈ f.key.parts.map (·.1)) ∨ s ∈ ["", "=", "AND"] := by
    refine f.conjunction_induction (P := fun parts e => ∀ s ∈ e.callerTexts,
      (s = f.key.table ∨ s ∈ parts.map (·.1)) ∨ s ∈ ["", "=", "AND"]) ?_ ?_
    · intro part s hs
      simpa using hc part s hs
    · intro parts e part _ he s hs
      have hm : s = "AND" ∨ s ∈ e.callerTexts ∨ s ∈ (KeyFilter.condition f.key.table part).callerTexts := by
        simpa [callerTexts, Expr.parts, ownTexts] using hs
      rcases hm with rfl | hm | hm
      · simp
      · have hi := he s hm
        simp only [List.map_append, List.mem_append]
        tauto
      · have hi := hc part s hm
        simp only [List.mem_cons, List.not_mem_nil, or_false] at hi
        simp only [List.map_append, List.mem_append, List.map_cons, List.map_nil, List.mem_cons,
          List.not_mem_nil, or_false]
        tauto
  have hk : (keyFilter f).callerTexts = f.key.table :: f.key.columns := by
    simp [callerTexts, Expr.parts, ownTexts]
  rw [hk, List.mem_cons]
  exact hall s hs

section Text

variable (spell : Spelling) (n : Nat)

theorem textAt_condition (table : String) (part : String × Value) (p : Position) :
    textAt spell (KeyFilter.condition table part) p n = partText spell table n part := by
  simp [KeyFilter.condition, qualified, textAt, partText, operandText, isConstant, constants,
    Position.shownAlias]

theorem conjunctionText_concat (table s : String) (parts : List (String × Value))
    (part : String × Value) :
    conjunctionText spell table s n (parts ++ [part]) =
      infixText "AND" (Fragment.operand (conjunctionText spell table s n parts))
        (Fragment.operand (partText spell table (n + parts.length) part)) := by
  induction parts generalizing s n with
  | nil => rfl
  | cons p parts ih =>
    rw [List.cons_append, conjunctionText, ih, conjunctionText, List.length_cons]
    congr 3
    omega

theorem keyText_concat (table : String) {parts : List (String × Value)} (h : parts ≠ [])
    (part : String × Value) :
    keyText spell n ⟨table, parts ++ [part]⟩ =
      infixText "AND" (Fragment.operand (keyText spell n ⟨table, parts⟩))
        (Fragment.operand (partText spell table (n + parts.length) part)) := by
  obtain ⟨p, parts, rfl⟩ := List.exists_cons_of_ne_nil h
  have hc := conjunctionText_concat spell (n + 1) table (partText spell table n p) parts part
  simpa [keyText, Nat.add_assoc, Nat.add_comm 1] using hc

theorem conjunction_written (f : KeyFilter) : f.conjunction.constants = f.key.values ∧
    ∀ p, textAt spell f.conjunction p n = keyText spell n f.key := by
  have h : f.conjunction.isConstant = false ∧ f.conjunction.constants = f.key.parts.map (·.2) ∧
      ∀ p, textAt spell f.conjunction p n = keyText spell n ⟨f.key.table, f.key.parts⟩ := by
    refine f.conjunction_induction (P := fun parts e => e.isConstant = false ∧
      e.constants = parts.map (·.2) ∧
      ∀ p, textAt spell e p n = keyText spell n ⟨f.key.table, parts⟩) ?_ ?_
    · intro part
      exact ⟨rfl, constants_condition _ part, fun p => textAt_condition spell n _ part p⟩
    · rintro parts e part hn ⟨hc, hv, ht⟩
      have hr : (KeyFilter.condition f.key.table part).isConstant = false := rfl
      refine ⟨rfl, ?_, fun p => ?_⟩
      · rw [constants, hv, constants_condition, List.map_append]
        rfl
      · rw [textAt, ht, textAt_condition, keyText_concat spell n _ hn, operandText, operandText, hc, hr,
          hv, List.length_map]
        rfl
  exact h.2

end Text

theorem renderTo_conjunction (f : KeyFilter) (p : Position) (r : Renderer) :
    renderTo f.conjunction p r = renderTo (keyFilter f) p r := by
  have h := r.mode.startsAt_sink
  obtain ⟨hc, ht⟩ := conjunction_written (r.mode.spelling r.dialect) r.mode.sink.length f
  rw [renderTo_eq_extend _ p h, renderTo_eq_extend _ p h, hc, ht, textAt, constants]

end Expr

end SqlExpr
