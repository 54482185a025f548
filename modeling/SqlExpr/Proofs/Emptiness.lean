import SqlExpr.Proofs.Conjunction
import SqlExpr.Proofs.Inlining

/-! # Expressions without text

Some expressions that are not the empty one are written as nothing: a column without a name, a list
without items, and what is made of one such expression. Which ones these are is a matter of their shape.
Every value has a spelling, so that wherever there is a constant there is text, and rendering an expression
without text leaves a renderer as it was.
-/
namespace SqlExpr.Expr

mutual
/-- Nothing is written for the expression on its own. -/
def isVoid : Expr → Bool
  | empty => true
  | column none name _ => name = ""
  | computed inner _ => isVoid inner
  | list items => areVoid items
  | _ => false

/-- Two items have a comma between them. -/
def areVoid : List Expr → Bool
  | [] => true
  | [e] => isVoid e
  | _ => false
end

theorem isVoid_of_isEmpty {e : Expr} (h : e.isEmpty = true) : e.isVoid = true := by
  cases e with
  | empty => rw [isVoid]
  | _ => simp [isEmpty] at h

variable {spell : Spelling}

theorem operandText_eq_empty_iff {e : Expr} {s : String} : operandText e s = "" ↔ s = "" := by
  unfold operandText
  split
  · rfl
  · exact Fragment.operand_eq_empty_iff

theorem infixText_ne_empty (op s t : String) : infixText op s t ≠ "" := by
  simp [infixText]

theorem keyText_ne_empty (n : Nat) (f : KeyFilter) : keyText spell n f.key ≠ "" := by
  obtain ⟨left, op, right, hc⟩ := f.conjunction_eq_binary
  rw [← (conjunction_written spell n f).2 .reference, hc, textAt]
  exact infixText_ne_empty _ _ _

mutual
/-- Where each value is spelled by some text, the shape tells whether there is any text. -/
theorem textAt_eq_empty_iff (hs : ∀ n v, spell n v ≠ "") :
    ∀ (e : Expr) (n : Nat), textAt spell e .reference n = "" ↔ e.isVoid = true
  | empty, n => by simp [textAt, isVoid]
  | raw sql, n => by simp [textAt, isVoid, sql.ne_empty]
  | column table name label, n => by
    cases table with
    | none => simp [textAt, isVoid, Position.shownAlias]
    | some w => simp [textAt, isVoid, Position.shownAlias, Fragment.qualified, w.ne_empty]
  | computed inner label, n => by
    rw [textAt, isVoid, ← textAt_eq_empty_iff hs inner n]
    exact operandText_eq_empty_iff
  | constant v, n => by simp [textAt, isVoid, hs]
  | binary left op right, n => by simp [textAt, isVoid, infixText_ne_empty]
  | join kind left right condition, n => by simp [textAt, isVoid]
  | list items, n => by
    rw [textAt, isVoid]
    exact itemsTextAt_eq_empty_iff hs items n
  | select .., n => by simp [textAt, isVoid]
  | keyFilter f, n => by simp [textAt, isVoid, keyText_ne_empty]

theorem itemsTextAt_eq_empty_iff (hs : ∀ n v, spell n v ≠ "") :
    ∀ (es : List Expr) (n : Nat), itemsTextAt spell es .reference n = "" ↔ areVoid es = true
  | [], n => by simp [itemsTextAt, areVoid]
  | [e], n => by
    rw [itemsTextAt, areVoid]
    exact textAt_eq_empty_iff hs e n
  | e :: e' :: es, n => by simp [itemsTextAt, areVoid]
end

theorem constants_of_isVoid {e : Expr} (h : e.isVoid = true) : e.constants = [] := by
  have hs := spelling_ne_empty .ansi []
  have ht := (textAt_eq_empty_iff hs e 0).mpr h
  exact constants_of_skeleton (((fits_bound .ansi [] e .reference 0).eq_empty_iff hs).mp ht)

section Render

variable {d : Dialect} {mode : Mode} {e : Expr}

theorem sql_render_eq_empty_iff : (e.render d mode).sql = "" ↔ e.isVoid = true := by
  rw [sql_render]
  exact textAt_eq_empty_iff (mode.spelling_ne_empty d) e _

theorem renderTo_of_isVoid (h : e.isVoid = true) (r : Renderer) : renderTo e .reference r = r := by
  have ht := (textAt_eq_empty_iff (r.mode.spelling_ne_empty r.dialect) e r.mode.sink.length).mpr h
  rw [renderTo_eq_extend e .reference r.mode.startsAt_sink, ht, constants_of_isVoid h,
    Renderer.extend_empty]

end Render

end SqlExpr.Expr
