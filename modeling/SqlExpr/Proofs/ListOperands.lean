import SqlExpr.Proofs.Balance
import SqlExpr.Proofs.Layout

/-! # Lists as operands

A list writes no parentheses of its own. As an operand it gets them by its text: with two items or more a
comma stands outside of all groups, so that the text never passes for a group already. A list of one item
is judged as that item would be: it stays without parentheses where the item is a single token or a quoted
constant, and where the item is a group the list is that group.
-/
namespace SqlExpr

namespace Fragment
open Text

/-- The reader gives up when the outermost group is closed and something follows. -/
theorem closesAtEnd_of_closed {t : List Char} {inQuote : Bool} {depth : Nat}
    (h : (unquoted inQuote t).count '(' + depth < (unquoted inQuote t).count ')') (c : Char)
    (cs : List Char) : closesAtEnd (depth + 1) inQuote (t ++ c :: cs) = false := by
  induction inQuote, t using reading_induction generalizing depth with
  | nil => simp [unquoted] at h
  | quote inQuote t ih =>
    rw [unquoted_quote] at h
    rw [List.cons_append, closesAtEnd_quote, ih h]
  | inside d t hd ih =>
    rw [unquoted_inside hd] at h
    rw [List.cons_append, closesAtEnd_in_quote hd, ih h]
  | opening t ih =>
    rw [unquoted_cons (by decide), List.count_cons_self, List.count_cons_of_ne (by decide)] at h
    rw [List.cons_append, closesAtEnd_open, ih (by omega)]
  | closing t ih =>
    rw [unquoted_cons (by decide), List.count_cons_self, List.count_cons_of_ne (by decide)] at h
    cases depth with
    | zero => simp [closesAtEnd]
    | succ depth => rw [List.cons_append, closesAtEnd_close, ih (by omega)]
  | plain d t hd ih =>
    obtain ⟨hq, ho, hc⟩ := isPlain_iff.mp hd
    rw [unquoted_cons hq, List.count_cons_of_ne ho, List.count_cons_of_ne hc] at h
    rw [List.cons_append, closesAtEnd_plain_cons hd, ih h]

/-- A balanced text closes the group that it begins with, so that nothing may follow in this group. -/
theorem IsBalanced.isGroup_append {t : List Char} (h : IsBalanced t) (hn : t ≠ []) (c : Char)
    (cs : List Char) : isGroup (t ++ c :: cs) = false := by
  obtain ⟨d, t, rfl⟩ := List.exists_cons_of_ne_nil hn
  by_cases hd : d = '('
  · subst hd
    have hc := h.matched.closed
    rw [unquoted_cons (by decide), List.count_cons_self, List.count_cons_of_ne (by decide)] at hc
    have hr : closesAtEnd 1 false (t ++ c :: cs) = false := closesAtEnd_of_closed (by omega) c cs
    rw [List.cons_append, isGroup_eq, closesAtEnd_open, hr, Bool.and_false]
  · simp [isGroup, hd]

theorem IsBalanced.intercalate {ss : List String} (h : ∀ s ∈ ss, IsBalanced s.toList) :
    IsBalanced (", ".intercalate ss).toList := by
  have hcomma : IsBalanced ", ".toList := .of_plain (List.all_eq_true.mp rfl)
  induction ss with
  | nil => exact .of_plain (by simp)
  | cons s ss ih =>
    have hs := h s List.mem_cons_self
    have hi := ih fun t ht => h t (List.mem_cons_of_mem s ht)
    by_cases hn : ss = []
    · simpa [hn] using hs
    · rw [String.intercalate_cons_of_ne_nil hn, String.toList_append, String.toList_append]
      exact (hs.append hcomma).append hi

theorem operand_intercalate {ss : List String} (h : ∀ s ∈ ss, s ≠ "" ∧ IsBalanced s.toList)
    (hl : 2 ≤ ss.length) : operand (", ".intercalate ss) = parenthesized (", ".intercalate ss) := by
  obtain _ | ⟨s, ss⟩ := ss
  · simp at hl
  · obtain ⟨hn, hs⟩ := h s List.mem_cons_self
    have hne : ss ≠ [] := by rintro rfl; simp at hl
    have ht : (", ".intercalate (s :: ss)).toList =
        s.toList ++ ',' :: ' ' :: (", ".intercalate ss).toList := by
      simp [intercalate_cons, trailing, hne, -String.toList_intercalate]
    apply operand_of_not_standsAlone
    rw [ht, standsAlone_separated hs.quotes rfl]
    exact hs.isGroup_append (by simpa using hn) ',' _

theorem IsBalanced.isGroup_operand {s : String} (h : IsBalanced s.toList) (hn : s ≠ "") :
    isGroup (operand s).toList = true ↔ isToken s.toList = false ∧ isConstant s.toList = false := by
  have he : s.toList.isEmpty = false := by simpa using hn
  cases hs : standsAlone s.toList with
  | false =>
    rw [operand_of_not_standsAlone hs]
    simp only [standsAlone, Bool.or_eq_false_iff] at hs
    exact iff_of_true (isGroup_parenthesized h) ⟨hs.1.1.2, hs.1.2⟩
  | true =>
    rw [operand_of_standsAlone hs]
    constructor
    · intro hg
      obtain ⟨cs, hcs⟩ : ∃ cs, s.toList = '(' :: cs := by
        rw [isGroup, Bool.and_eq_true, Bool.and_eq_true, beq_iff_eq] at hg
        exact List.head?_eq_some_iff.mp hg.1.1
      rw [hcs]
      exact ⟨isToken_of_open cs, isConstant_of_open cs⟩
    · rintro ⟨ht, hc⟩
      simpa [standsAlone, he, ht, hc] using hs

end Fragment

namespace Expr
open Fragment

/-- The texts of expressions that are rendered one after the other with one sink. -/
def renderEach (d : Dialect) : Mode → List Expr → List String
  | _, [] => []
  | mode, e :: es => (e.render d mode).sql :: renderEach d (e.render d mode).mode es

variable (d : Dialect)

theorem length_renderEach (mode : Mode) (es : List Expr) : (renderEach d mode es).length = es.length := by
  induction es generalizing mode with
  | nil => rfl
  | cons e es ih => simp [renderEach, ih]

theorem renderEach_eq_itemTexts {mode : Mode} {n : Nat} (h : mode.StartsAt n) (es : List Expr) :
    renderEach d mode es = itemTexts (mode.spelling d) es .reference n := by
  induction es generalizing mode n with
  | nil => rfl
  | cons e es ih =>
    have hi := ih (h.extend e.constants)
    rw [Mode.spelling_extend] at hi
    rw [renderEach, itemTexts, mode_render, sql_render_of_startsAt h, hi]

theorem sql_render_list (mode : Mode) (items : List Expr) :
    ((list items).render d mode).sql = ", ".intercalate (renderEach d mode items) := by
  rw [sql_render, textAt, renderEach_eq_itemTexts d mode.startsAt_sink]
  exact itemsTextAt_eq_intercalate (mode.spelling d) .reference mode.sink.length items

theorem sql_render_binary (mode : Mode) (left : Expr) (op : String) (right : Expr) :
    ((binary left op right).render d mode).sql =
      infixText op (left.operandText (left.render d mode).sql)
        (right.operandText (right.render d (left.render d mode).mode).sql) := by
  have hs := mode.startsAt_sink.extend left.constants
  rw [sql_render, textAt, sql_render, mode_render, sql_render_of_startsAt hs, Mode.spelling_extend]

/-- As a right operand, a list of two items or more is one group of its items. A list of one item gets
parentheses unless the item is a single token, a quoted constant or a group already; in the last case the
operand is the group that the item is, and in the other two it is no group. -/
theorem list_operand_grouped_by_text (mode : Mode) (left : Expr) (op : String) {items : List Expr}
    (hn : items ≠ [])
    (ht : ∀ s ∈ renderEach d (left.render d mode).mode items, s ≠ "" ∧ IsBalanced s.toList) :
    let joined := ", ".intercalate (renderEach d (left.render d mode).mode items)
    ((binary left op (list items)).render d mode).sql =
        infixText op (left.operandText (left.render d mode).sql) (operand joined) ∧
      (2 ≤ items.length →
        operand joined = parenthesized joined ∧ isGroup (operand joined).toList = true) ∧
      (operand joined = parenthesized joined ↔ isToken joined.toList = false ∧
        Fragment.isConstant joined.toList = false ∧ isGroup joined.toList = false) ∧
      (isGroup (operand joined).toList = true ↔
        isToken joined.toList = false ∧ Fragment.isConstant joined.toList = false) := by
  intro joined
  have hb : IsBalanced joined.toList := .intercalate fun s hs => (ht s hs).2
  have hj : joined ≠ "" := by
    obtain ⟨e, es, rfl⟩ := List.exists_cons_of_ne_nil hn
    have he := (ht _ List.mem_cons_self).1
    simp [joined, renderEach, Text.intercalate_cons, he]
  have hg := hb.isGroup_operand hj
  refine ⟨?_, fun hl => ?_, ?_, hg⟩
  · rw [sql_render_binary, sql_render_list]
    rfl
  · have ho : operand joined = parenthesized joined :=
      operand_intercalate ht (by rwa [length_renderEach])
    exact ⟨ho, ho ▸ isGroup_parenthesized hb⟩
  · simp [operand_eq_parenthesized_iff, standsAlone, hj, and_assoc]

/-- A placeholder and a query in parentheses are two items, and get parentheses around both. -/
theorem list_operand_grouped_around_subquery :
    let items := [constant (.string "a"), ofText "(SELECT 1)"]
    let texts := renderEach .postgres ((constant (.int 7)).render .postgres (.bind [.null])).mode items
    (items ≠ [] ∧ (∀ s ∈ texts, s ≠ "" ∧ IsBalanced s.toList) ∧ 2 ≤ items.length) ∧
      operand (", ".intercalate texts) = parenthesized (", ".intercalate texts) ∧
      ((binary (constant (.int 7)) "NOT IN" (list items)).render .postgres (.bind [.null])).sql =
        "($2 NOT IN ($3, (SELECT 1)))" := by
  intro items texts
  have hn : items ≠ [] := by simp [items]
  have ht : ∀ s ∈ texts, s ≠ "" ∧ IsBalanced s.toList := by decide +kernel
  obtain ⟨hs, hl, _⟩ :=
    list_operand_grouped_by_text .postgres (.bind [.null]) (constant (.int 7)) "NOT IN" hn ht
  exact ⟨⟨hn, ht, le_rfl⟩, (hl le_rfl).1, hs.trans (by decide +kernel)⟩

/-- The only value of a list has no parentheses, neither as a placeholder nor as a literal. -/
theorem list_operand_of_one_value_not_grouped :
    let items := [constant (.int 1)]
    let e := binary (named "x") "IN" (list items)
    (∀ mode ∈ [Mode.literal, .bind []], ∀ s ∈ renderEach .ansi mode items,
        s ≠ "" ∧ IsBalanced s.toList) ∧
      (e.boundSql .ansi).1 = "(x IN ?)" ∧ e.literalSql .ansi = "(x IN 1)" := by
  decide +kernel

end Expr

end SqlExpr
