import SqlExpr.Proofs.Composition

/-! # What texts are put together from

Every text comes from the texts of the caller, the spellings of constants, a few keywords and pairs of
parentheses around what is already a text. A property of texts that is kept by putting them together in
this way holds of the text of every expression, however its parentheses are decided.
-/
namespace SqlExpr

/-- A property of texts that is kept by all that puts a text together. -/
structure Assembles (spell : Spelling) (P : String → Prop) : Prop where
  keyword : ∀ {s : String}, s.toList.all isKeywordChar = true → P s
  append : ∀ {s t : String}, P s → P t → P (s ++ t)
  parenthesized : ∀ {s : String}, P s → P (Fragment.parenthesized s)
  value : ∀ n v, P (spell n v)

namespace Assembles

variable {spell : Spelling} {P : String → Prop} {s t : String}

theorem empty (h : Assembles spell P) : P "" := h.keyword (by simp)

theorem spaced (h : Assembles spell P) (hs : P s) : P (" " ++ s ++ " ") :=
  h.append (h.append (h.keyword (by decide)) hs) (h.keyword (by decide))

theorem qualified (h : Assembles spell P) (hs : P s) (ht : P t) : P (Fragment.qualified s t) := by
  unfold Fragment.qualified
  split
  · exact ht
  · exact h.append (h.append hs (h.keyword (by decide))) ht

theorem aliased (h : Assembles spell P) (hs : P s) (ht : P t) : P (Fragment.aliased s t) := by
  unfold Fragment.aliased
  split
  · exact hs
  · exact h.append (h.append hs (h.keyword (by decide))) ht

theorem operand (h : Assembles spell P) (hs : P s) : P (Fragment.operand s) := by
  unfold Fragment.operand
  split
  · exact hs
  · exact h.parenthesized hs

theorem operandText (h : Assembles spell P) (e : Expr) (hs : P s) : P (e.operandText s) := by
  unfold Expr.operandText
  split
  · exact hs
  · exact h.operand hs

theorem sourceText (h : Assembles spell P) (e : Expr) (hs : P s) : P (Renderer.sourceText e s) := by
  unfold Renderer.sourceText
  split
  · exact h.parenthesized hs
  · exact hs

theorem columnsText (h : Assembles spell P) (hs : P s) : P (Renderer.columnsText s) := by
  unfold Renderer.columnsText
  split
  · exact h.keyword (by decide)
  · exact hs

theorem clauseTextOf (h : Assembles spell P) {keyword : String} (hk : P (" " ++ keyword ++ " "))
    (e : Expr) (hs : P s) : P (Expr.clauseTextOf keyword e s) := by
  unfold Expr.clauseTextOf Renderer.clauseText
  split
  · exact h.empty
  · split
    · exact h.empty
    · exact h.append hk hs

theorem infixText (h : Assembles spell P) {op : String} (ho : P op) (hs : P s) (ht : P t) :
    P (Expr.infixText op s t) := by
  have hp := h.parenthesized (h.append (h.append hs (h.spaced ho)) ht)
  simpa [Expr.infixText, Fragment.parenthesized, String.append_assoc] using hp

theorem partText (h : Assembles spell P) {table : String} (ht : P table) (n : Nat)
    {part : String × Value} (hc : P part.1) : P (Expr.partText spell table n part) :=
  h.infixText (h.keyword (by decide)) (h.operand (h.qualified ht hc)) (h.value n part.2)

theorem conjunctionText (h : Assembles spell P) {table : String} (ht : P table) (n : Nat)
    {parts : List (String × Value)} (hc : ∀ part ∈ parts, P part.1) (hs : P s) :
    P (Expr.conjunctionText spell table s n parts) := by
  induction parts generalizing s n with
  | nil => exact hs
  | cons part parts ih =>
    have hp := h.partText ht n (hc part List.mem_cons_self)
    exact ih (n + 1) (fun q hq => hc q (List.mem_cons_of_mem _ hq))
      (h.infixText (h.keyword (by decide)) (h.operand hs) (h.operand hp))

theorem keyText (h : Assembles spell P) (n : Nat) {k : Key} (ht : P k.table)
    (hc : ∀ column ∈ k.columns, P column) : P (Expr.keyText spell n k) := by
  obtain ⟨table, parts⟩ := k
  have hp : ∀ part ∈ parts, P part.1 := fun part hm => hc part.1 (List.mem_map_of_mem hm)
  cases parts with
  | nil => exact h.empty
  | cons part parts =>
    exact h.conjunctionText ht (n + 1) (fun q hq => hp q (List.mem_cons_of_mem _ hq))
      (h.partText ht n (hp part List.mem_cons_self))

end Assembles

namespace Expr

variable {spell : Spelling} {P : String → Prop}

theorem alias_of_assembles (h : Assembles spell P) {label : Option Word} (hl : P (Word.textD label))
    (p : Position) : P (p.shownAlias label) := by
  cases p
  · exact h.empty
  · exact hl
  · exact hl

mutual
theorem textAt_of_assembles (h : Assembles spell P) : ∀ (e : Expr) (p : Position) (n : Nat),
    (∀ s ∈ e.callerTexts, P s) → P (textAt spell e p n)
  | empty, p, n, _ => by
    rw [textAt]
    exact h.empty
  | raw sql, p, n, hq => by
    rw [textAt]
    exact hq _ (ownTexts_subset_callerTexts _ (by simp [ownTexts]))
  | column table name label, p, n, hq => by
    have ho := fun s hs => hq s (ownTexts_subset_callerTexts _ hs)
    simp only [ownTexts, List.mem_cons, List.not_mem_nil, or_false, forall_eq_or_imp,
      forall_eq] at ho
    obtain ⟨ht, hn, hl⟩ := ho
    rw [textAt]
    exact h.aliased (h.qualified ht hn) (alias_of_assembles h hl p)
  | computed inner label, p, n, hq => by
    have hi := textAt_of_assembles h inner .reference n (forall_callerTexts hq (by simp [children]))
    have hl := hq (Word.textD label) (ownTexts_subset_callerTexts _ (by simp [ownTexts]))
    rw [textAt]
    exact h.aliased (h.operandText inner hi) (alias_of_assembles h hl p)
  | constant v, p, n, _ => by
    rw [textAt]
    exact h.value n v
  | binary left op right, p, n, hq => by
    have hl := textAt_of_assembles h left .reference n (forall_callerTexts hq (by simp [children]))
    have hr := textAt_of_assembles h right .reference (n + left.constants.length)
      (forall_callerTexts hq (by simp [children]))
    have ho := hq op (ownTexts_subset_callerTexts _ (by simp [ownTexts]))
    rw [textAt]
    exact h.infixText ho (h.operandText left hl) (h.operandText right hr)
  | join kind left right condition, p, n, hq => by
    have hl := textAt_of_assembles h left .reference n (forall_callerTexts hq (by simp [children]))
    have hr := textAt_of_assembles h right .reference (n + left.constants.length)
      (forall_callerTexts hq (by simp [children]))
    have hc := textAt_of_assembles h condition .reference
      (n + left.constants.length + right.constants.length)
      (forall_callerTexts hq (by simp [children]))
    have hk : P (" " ++ kind.keyword ++ " ") := by cases kind <;> exact h.keyword (by decide)
    rw [textAt]
    exact h.append (h.append (h.append (h.append (h.sourceText left hl) hk) (h.sourceText right hr))
      (h.keyword (by decide))) (h.operandText condition hc)
  | list items, p, n, hq => by
    rw [textAt]
    exact itemsTextAt_of_assembles h items p.ofItems n fun e he =>
      forall_callerTexts hq (by simpa [children] using he)
  | select columns source condition grouping having ordering, p, n, hq => by
    have hc := textAt_of_assembles h columns .selectList n
      (forall_callerTexts hq (by simp [children]))
    have hs := fun n => textAt_of_assembles h source .reference n
      (forall_callerTexts hq (by simp [children]))
    have hw := fun n => textAt_of_assembles h condition .reference n
      (forall_callerTexts hq (by simp [children]))
    have hg := fun n => textAt_of_assembles h grouping .reference n
      (forall_callerTexts hq (by simp [children]))
    have hh := fun n => textAt_of_assembles h having .reference n
      (forall_callerTexts hq (by simp [children]))
    have ho := fun n => textAt_of_assembles h ordering .reference n
      (forall_callerTexts hq (by simp [children]))
    rw [textAt]
    refine h.append (h.append (h.append (h.append (h.append (h.append ?_ ?_) ?_) ?_) ?_) ?_) ?_
    · exact h.keyword (by decide)
    · exact h.columnsText hc
    · exact h.clauseTextOf (h.keyword (by decide)) source (h.sourceText source (hs _))
    · exact h.clauseTextOf (h.keyword (by decide)) condition (hw _)
    · exact h.clauseTextOf (h.keyword (by decide)) grouping (hg _)
    · exact h.clauseTextOf (h.keyword (by decide)) having (hh _)
    · exact h.clauseTextOf (h.keyword (by decide)) ordering (ho _)
  | keyFilter f, p, n, hq => by
    have ho := fun s hs => hq s (ownTexts_subset_callerTexts _ hs)
    simp only [ownTexts, List.mem_cons, forall_eq_or_imp] at ho
    rw [textAt]
    exact h.keyText n ho.1 ho.2

theorem itemsTextAt_of_assembles (h : Assembles spell P) : ∀ (es : List Expr) (p : Position) (n : Nat),
    (∀ e ∈ es, ∀ s ∈ e.callerTexts, P s) → P (itemsTextAt spell es p n)
  | [], p, n, _ => by
    rw [itemsTextAt]
    exact h.empty
  | [e], p, n, hq => by
    rw [itemsTextAt]
    exact textAt_of_assembles h e p n (hq e (by simp))
  | e :: e' :: es, p, n, hq => by
    have he := textAt_of_assembles h e p n (hq e (by simp))
    have hes := itemsTextAt_of_assembles h (e' :: es) p (n + e.constants.length) fun f hf =>
      hq f (List.mem_cons_of_mem _ hf)
    rw [itemsTextAt]
    exact h.append (h.append he (h.keyword (by decide))) hes
end

end Expr

end SqlExpr
