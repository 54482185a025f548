import SqlExpr.Proofs.ListOperands
import SqlExpr.Proofs.Reading
import SqlExpr.Proofs.Subqueries
import SqlExpr.Proofs.Tables

/-! # Chains of conjunctions and disjunctions

However a sequence of expressions is bracketed when it is joined by one connective, the result says the
same: empty expressions drop out, values and tables come in the order of the sequence, and the texts of the
others stand in their order with the connective between them. Only parentheses tell bracketings apart, and
all that an operand is judged by its text for is to add one more pair of these.
-/
namespace SqlExpr
open Fragment

section Ungrouped

/-- The characters without the parentheses outside of quotes. -/
def Fragment.ungroupedFrom : Bool → List Char → List Char
  | _, [] => []
  | inQuote, c :: cs =>
    if c = '\'' then c :: ungroupedFrom (!inQuote) cs
    else if !inQuote && isParenthesis c then ungroupedFrom inQuote cs
    else c :: ungroupedFrom inQuote cs

def Fragment.ungrouped (s : String) : String := .ofList (ungroupedFrom false s.toList)

theorem Fragment.ungroupedFrom_append {s : List Char} {inQuote : Bool}
    (h : (s.count '\'' + inQuote.toNat) % 2 = 0) (t : List Char) :
    ungroupedFrom inQuote (s ++ t) = ungroupedFrom inQuote s ++ ungroupedFrom false t := by
  induction s generalizing inQuote with
  | nil =>
    cases inQuote with
    | false => rfl
    | true => simp at h
  | cons c s ih =>
    by_cases hc : c = '\''
    · subst hc
      rw [count_quote_cons] at h
      simpa [ungroupedFrom] using ih h
    · rw [List.count_cons_of_ne hc] at h
      have hi := ih h
      cases hp : !inQuote && isParenthesis c <;> simp [ungroupedFrom, hc, hp, hi]

variable {s t : String}

theorem Fragment.ungrouped_append (hs : ClosesQuotes s) (t : String) :
    ungrouped (s ++ t) = ungrouped s ++ ungrouped t := by
  have h := @ungroupedFrom_append s.toList false hs t.toList
  rw [ungrouped, String.toList_append, h, String.ofList_append]
  rfl

theorem Fragment.ungrouped_parenthesized (hs : ClosesQuotes s) :
    ungrouped (parenthesized s) = ungrouped s := by
  have ho : ungrouped "(" = "" := by decide +kernel
  have hc : ungrouped ")" = "" := by decide +kernel
  have hopen : ClosesQuotes "(" := by decide
  rw [parenthesized, ungrouped_append (hopen.append hs), ungrouped_append hopen, ho, hc,
    String.empty_append, String.append_empty]

/-- What is judged by its text gets at most one more pair of parentheses. -/
theorem Expr.ungrouped_operandText (e : Expr) (hs : ClosesQuotes s) :
    ungrouped (e.operandText s) = ungrouped s := by
  unfold operandText operand
  split
  · rfl
  · split
    · rfl
    · exact ungrouped_parenthesized hs

end Ungrouped

theorem assembles_closesQuotes (d : Dialect) (mode : Mode) :
    Assembles (mode.spelling d) ClosesQuotes where
  keyword h := by
    rw [ClosesQuotes, List.count_eq_zero.mpr]
    intro hm
    exact absurd (List.all_eq_true.mp h _ hm) (by decide)
  append := .append
  parenthesized hs := ClosesQuotes.append (.append (by decide) hs) (by decide)
  value n v := (mode.isBalanced_spelling d n v).quotes

inductive Connective where
  | and
  | or
deriving DecidableEq

namespace Connective

def word : Connective → String
  | and => "AND"
  | or => "OR"

def join : Connective → Expr → Expr → Expr
  | and => Expr.and
  | or => Expr.or

theorem join_eq (c : Connective) (a b : Expr) : c.join a b = Expr.combine c.word a b := by
  cases c <;> rfl

theorem ungrouped_infixText (c : Connective) (a b : Expr) {s t : String} (hs : ClosesQuotes s)
    (ht : ClosesQuotes t) (hs' : ClosesQuotes (a.operandText s)) (ht' : ClosesQuotes (b.operandText t)) :
    ungrouped (Expr.infixText c.word (a.operandText s) (b.operandText t)) =
      ungrouped s ++ (" " ++ c.word ++ " ") ++ ungrouped t := by
  have hw : ClosesQuotes (" " ++ c.word ++ " ") := by cases c <;> decide
  have hu : ungrouped (" " ++ c.word ++ " ") = " " ++ c.word ++ " " := by
    cases c <;> decide +kernel
  have hp : Expr.infixText c.word (a.operandText s) (b.operandText t) =
      parenthesized (a.operandText s ++ (" " ++ c.word ++ " ") ++ b.operandText t) := by
    simp [Expr.infixText, parenthesized, String.append_assoc]
  rw [hp, ungrouped_parenthesized ((hs'.append hw).append ht'), ungrouped_append (hs'.append hw),
    ungrouped_append hs', hu, a.ungrouped_operandText hs, b.ungrouped_operandText ht]

end Connective

/-- A sequence of expressions, bracketed by twos. -/
inductive Bracketing where
  | leaf (e : Expr)
  | node (left right : Bracketing)

namespace Bracketing

def leaves : Bracketing → List Expr
  | leaf e => [e]
  | node left right => left.leaves ++ right.leaves

def terms (B : Bracketing) : List Expr := B.leaves.filter fun e => !e.isEmpty

def joined (c : Connective) : Bracketing → Expr
  | leaf e => e
  | node left right => c.join (left.joined c) (right.joined c)

variable {c : Connective}

theorem isEmpty_joined (c : Connective) (B : Bracketing) : (B.joined c).isEmpty = true ↔ B.terms = [] := by
  induction B with
  | leaf e => simp [joined, terms, leaves]
  | node left right ihl ihr =>
    rw [joined, c.join_eq, Expr.isEmpty_combine, Bool.and_eq_true, ihl, ihr]
    simp [terms, leaves]

/-- A chain is empty, a single element or the operator applied to two shorter chains. -/
theorem joined_induction {P : List Expr → Expr → Prop} (nothing : P [] .empty)
    (single : ∀ e, P [e] e)
    (more : ∀ left right : Bracketing, left.terms ≠ [] → right.terms ≠ [] →
      P left.terms (left.joined c) → P right.terms (right.joined c) →
      P (left.terms ++ right.terms) (.binary (left.joined c) c.word (right.joined c)))
    (B : Bracketing) : P B.terms (B.joined c) := by
  induction B with
  | leaf e =>
    cases e with
    | empty => exact nothing
    | _ => exact single _
  | node left right ihl ihr =>
    have hl := left.isEmpty_joined c
    have hr := right.isEmpty_joined c
    have ht : (node left right).terms = left.terms ++ right.terms := List.filter_append ..
    rw [joined, c.join_eq, ht]
    by_cases hel : left.terms = []
    · rw [Expr.combine, if_pos (hl.mpr hel), hel]
      exact ihr
    · by_cases her : right.terms = []
      · rw [Expr.combine, if_neg (mt hl.mp hel), if_pos (hr.mpr her), her, List.append_nil]
        exact ihl
      · rw [Expr.combine, if_neg (mt hl.mp hel), if_neg (mt hr.mp her)]
        exact more left right hel her ihl ihr

theorem constants_joined (B : Bracketing) :
    (B.joined c).constants = B.terms.flatMap Expr.constants := by
  refine B.joined_induction (P := fun es e => e.constants = es.flatMap Expr.constants) ?_ ?_ ?_
  · simp [Expr.constants]
  · simp
  · intro left right _ _ hl hr
    rw [Expr.constants, hl, hr, List.flatMap_append]

theorem addTables_joined (B : Bracketing) (known : List String) :
    (B.joined c).addTables known = B.terms.foldl (fun known e => e.addTables known) known := by
  revert known
  refine B.joined_induction (P := fun es e => ∀ known : List String,
    e.addTables known = es.foldl (fun known e => e.addTables known) known) ?_ ?_ ?_
  · simp [Expr.addTables]
  · simp
  · intro left right _ _ hl hr known
    rw [Expr.addTables, hl, hr, List.foldl_append]

/-- The texts of the terms stand one behind the other, with the connective between them. -/
theorem ungrouped_textAt_joined (d : Dialect) (mode : Mode) (B : Bracketing)
    (h : ∀ e ∈ B.terms, ∀ s ∈ e.callerTexts, ClosesQuotes s) (n : Nat) :
    ungrouped (Expr.textAt (mode.spelling d) (B.joined c) .reference n) =
      (" " ++ c.word ++ " ").intercalate
        ((Expr.itemTexts (mode.spelling d) B.terms .reference n).map ungrouped) := by
  have ha := assembles_closesQuotes d mode
  -- Quotes have to be closed in each shorter chain, for the parentheses behind it to be outside of them.
  refine (B.joined_induction (c := c) (P := fun es e =>
    (∀ e ∈ es, ∀ s ∈ e.callerTexts, ClosesQuotes s) →
      ∀ n, ClosesQuotes (Expr.textAt (mode.spelling d) e .reference n) ∧
        ungrouped (Expr.textAt (mode.spelling d) e .reference n) =
          (" " ++ c.word ++ " ").intercalate
            ((Expr.itemTexts (mode.spelling d) es .reference n).map ungrouped)) ?_ ?_ ?_ h n).2
  · intro _ n
    rw [Expr.textAt]
    exact ⟨by decide, by simp [Expr.itemTexts, ungrouped, ungroupedFrom]⟩
  · intro e he n
    exact ⟨Expr.textAt_of_assembles ha e .reference n (he e (by simp)), by simp [Expr.itemTexts]⟩
  · intro left right hl hr ihl ihr hq n
    obtain ⟨hql, hul⟩ := ihl (fun e he => hq e (List.mem_append_left _ he)) n
    obtain ⟨hqr, hur⟩ := ihr (fun e he => hq e (List.mem_append_right _ he))
      (n + (left.joined c).constants.length)
    have hol := ha.operandText (left.joined c) hql
    have hor := ha.operandText (right.joined c) hqr
    have hw : ClosesQuotes c.word := by cases c <;> decide
    have hnil : ∀ {es : List Expr} {n : Nat}, es ≠ [] →
        (Expr.itemTexts (mode.spelling d) es .reference n).map ungrouped ≠ [] := by
      intro es n hes
      obtain ⟨e, es, rfl⟩ := List.exists_cons_of_ne_nil hes
      simp [Expr.itemTexts]
    rw [Expr.textAt]
    refine ⟨ha.infixText hw hol hor, ?_⟩
    rw [c.ungrouped_infixText _ _ hql hqr hol hor, hul, hur, Expr.itemTexts_append, List.map_append,
      String.intercalate_append_of_ne_nil (hnil hl) (hnil hr), Expr.itemConstants_eq_flatMap,
      constants_joined]

section Leaves

variable (es : List Expr)

theorem flatMap_constants_terms :
    (es.filter fun e => !e.isEmpty).flatMap Expr.constants = es.flatMap Expr.constants := by
  induction es with
  | nil => rfl
  | cons e es ih =>
    cases h : e.isEmpty with
    | true => simp [h, ih, Expr.constants_of_isEmpty h]
    | false => simp [h, ih]

theorem foldl_addTables_terms (known : List String) :
    (es.filter fun e => !e.isEmpty).foldl (fun known e => e.addTables known) known =
      es.foldl (fun known e => e.addTables known) known := by
  rw [List.foldl_filter]
  refine List.foldl_ext _ _ _ fun known e _ => ?_
  cases e <;> simp [Expr.isEmpty, Expr.addTables]

end Leaves

theorem closesQuotes_terms {B : Bracketing}
    (h : ∀ e ∈ B.leaves, ∀ s ∈ e.callerTexts, ClosesQuotes s) :
    ∀ e ∈ B.terms, ∀ s ∈ e.callerTexts, ClosesQuotes s :=
  fun e he => h e (List.mem_filter.mp he).1

/-- Joined by conjunction or by disjunction, a sequence has the values and the tables of its elements in
their order and, without the parentheses outside of quotes, the texts of those that are not empty with the
connective between them. It is empty when all of them are, and nothing of this can tell its bracketing, or
that empty elements were left out. -/
theorem joined_reads_as_sequence (c : Connective) (B : Bracketing) :
    ((B.joined c).isEmpty = true ↔ ∀ e ∈ B.leaves, e.isEmpty = true) ∧
      (∀ (d : Dialect) (mode : Mode),
        ((B.joined c).render d mode).mode = mode.extend (B.leaves.flatMap Expr.constants)) ∧
      (∀ known, (B.joined c).addTables known =
        B.leaves.foldl (fun known e => e.addTables known) known) ∧
      ((∀ e ∈ B.leaves, ∀ s ∈ e.callerTexts, ClosesQuotes s) → ∀ (d : Dialect) (mode : Mode),
        ungrouped ((B.joined c).render d mode).sql =
          (" " ++ c.word ++ " ").intercalate ((Expr.renderEach d mode B.terms).map ungrouped)) ∧
      ∀ B' : Bracketing, B'.terms = B.terms →
        (B'.joined c).isEmpty = (B.joined c).isEmpty ∧
          (∀ (d : Dialect) (mode : Mode),
            ((B'.joined c).render d mode).mode = ((B.joined c).render d mode).mode) ∧
          (B'.joined c).tables = (B.joined c).tables ∧
          ((∀ e ∈ B.leaves, ∀ s ∈ e.callerTexts, ClosesQuotes s) → ∀ (d : Dialect) (mode : Mode),
            ungrouped ((B'.joined c).render d mode).sql =
              ungrouped ((B.joined c).render d mode).sql) := by
  refine ⟨?_, fun d mode => ?_, fun known => ?_, fun h d mode => ?_, fun B' hB =>
    ⟨?_, fun d mode => ?_, ?_, fun h d mode => ?_⟩⟩
  · rw [isEmpty_joined, terms]
    simp
  · rw [Expr.mode_render, constants_joined, terms, flatMap_constants_terms]
  · rw [addTables_joined, terms, foldl_addTables_terms]
  · rw [Expr.sql_render, ungrouped_textAt_joined d mode B (closesQuotes_terms h),
      Expr.renderEach_eq_itemTexts d mode.startsAt_sink]
  · rw [Bool.eq_iff_iff, isEmpty_joined, isEmpty_joined, hB]
  · rw [Expr.mode_render, Expr.mode_render, constants_joined, constants_joined, hB]
  · rw [Expr.tables, Expr.tables, addTables_joined, addTables_joined, hB]
  · have hq := closesQuotes_terms h
    rw [Expr.sql_render, Expr.sql_render, ungrouped_textAt_joined d mode B hq,
      ungrouped_textAt_joined d mode B' (hB ▸ hq), hB]

/-- The parentheses inside of quotes stay where they are. -/
theorem joined_reads_as_sequence_of_quoted_parentheses :
    let a := Expr.filter .eq "a" (.string "it's (")
    let b := Expr.ofText "f(b) < ')'"
    let x := Expr.named "x"
    let B := node (node (leaf .empty) (leaf a)) (node (leaf b) (node (leaf x) (leaf .empty)))
    let B' := node (node (leaf a) (leaf b)) (leaf x)
    (B'.terms = B.terms ∧ ∀ e ∈ B.leaves, ∀ s ∈ e.callerTexts, ClosesQuotes s) ∧
      ((B.joined .or).render .ansi .literal).sql = "((a = 'it''s (') OR ((f(b) < ')') OR x))" ∧
      ((B'.joined .or).render .ansi .literal).sql = "(((a = 'it''s (') OR (f(b) < ')')) OR x)" ∧
      ungrouped ((B'.joined .or).render .ansi .literal).sql =
        ungrouped ((B.joined .or).render .ansi .literal).sql ∧
      ungrouped ((B.joined .or).render .ansi .literal).sql = "a = 'it''s (' OR fb < ')' OR x" := by
  intro a b x B B'
  have hB : B'.terms = B.terms := rfl
  have hq : ∀ e ∈ B.leaves, ∀ s ∈ e.callerTexts, ClosesQuotes s := by decide
  obtain ⟨_, _, _, ht, hagree⟩ := joined_reads_as_sequence .or B
  exact ⟨⟨hB, hq⟩, by decide +kernel, by decide +kernel, (hagree B' hB).2.2.2 hq .ansi .literal,
    (ht hq .ansi .literal).trans (by decide +kernel)⟩

end Bracketing

end SqlExpr
