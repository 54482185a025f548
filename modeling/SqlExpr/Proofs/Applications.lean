import SqlExpr.Proofs.Balance
import SqlExpr.Proofs.Conjunction

/-! # Balanced renderings

When every text of the caller is balanced, so is the text of the whole expression, whatever its string
constants contain. An operator application is then one group in parentheses, and nothing that takes it
as an operand puts a second pair around it.
-/
namespace SqlExpr
open Fragment

namespace Expr

theorem isBalanced_callerTexts_conjunction {f : KeyFilter}
    (h : ∀ s ∈ (keyFilter f).callerTexts, IsBalanced s.toList) :
    ∀ s ∈ f.conjunction.callerTexts, IsBalanced s.toList := by
  have hk : ∀ s ∈ ["", "=", "AND"], IsBalanced s.toList := by decide
  intro s hs
  exact (callerTexts_conjunction f hs).elim (h s) (hk s)

/-- An infix operator, or the conjunction of a filter by key. -/
def isApplication : Expr → Bool
  | binary .. => true
  | keyFilter _ => true
  | _ => false

/-- The parts of an expression, among them those of the conjunctions that filters by key stand for. -/
def unfoldedParts (e : Expr) : List Expr :=
  e.parts.flatMap fun f =>
    match f with
    | keyFilter k => f :: k.conjunction.parts
    | _ => [f]

theorem isBalanced_callerTexts_of_mem_unfoldedParts {e f : Expr}
    (h : ∀ s ∈ e.callerTexts, IsBalanced s.toList) (hf : f ∈ e.unfoldedParts) :
    ∀ s ∈ f.callerTexts, IsBalanced s.toList := by
  obtain ⟨g, hg, hf⟩ := List.mem_flatMap.mp hf
  have hb := forall_callerTexts_of_mem_parts h hg
  cases g with
  | keyFilter k =>
    rcases List.mem_cons.mp hf with rfl | hf
    · exact hb
    · exact forall_callerTexts_of_mem_parts (isBalanced_callerTexts_conjunction hb) hf
  | _ =>
    obtain rfl := List.mem_singleton.mp hf
    exact hb

/-- As an operand, as the condition of a join and as what a column is computed from, the expression is
written as it is, without parentheses around it. -/
structure IsWrittenBare (e : Expr) : Prop where
  left : ∀ op right p r, renderTo (binary e op right) p r =
    r.pushInfix op (renderTo e .reference) (·.pushOperand right (renderTo right .reference))
  right : ∀ left op p r, renderTo (binary left op e) p r =
    r.pushInfix op (·.pushOperand left (renderTo left .reference)) (renderTo e .reference)
  condition : ∀ kind left right p r, renderTo (join kind left right e) p r =
    renderTo e .reference ((((r.pushSource left (renderTo left .reference)).push
      (" " ++ kind.keyword ++ " ")).pushSource right (renderTo right .reference)).push " ON ")
  computed : ∀ label p r, renderTo (computed e label) p r =
    r.pushFragment (Fragment.aliased · (p.shownAlias label)) (renderTo e .reference)

theorem IsWrittenBare.of_pushOperand {e : Expr}
    (h : ∀ r : Renderer, r.pushOperand e (renderTo e .reference) = renderTo e .reference r) :
    e.IsWrittenBare where
  left op right p r := by simp only [renderTo, h]
  right left op p r := by simp only [renderTo, h]
  condition kind left right p r := by simp only [renderTo, h]
  computed label p r := by simp only [renderTo, h]

section Balanced

variable {e : Expr} (h : ∀ s ∈ e.callerTexts, IsBalanced s.toList) (d : Dialect) (mode : Mode)
include h

theorem isGroup_textAt_of_binary {left right : Expr} {op : String} (he : e = binary left op right)
    (p : Position) (n : Nat) : isGroup (textAt (mode.spelling d) e p n).toList = true := by
  subst he
  have ha := assembles_isBalanced d mode
  have hl := ha.operandText left (isBalanced_textAt (e := left)
    (forall_callerTexts h (by simp [children])) d mode .reference n)
  have hr := ha.operandText right (isBalanced_textAt (e := right)
    (forall_callerTexts h (by simp [children])) d mode .reference (n + left.constants.length))
  have ho := h op (ownTexts_subset_callerTexts _ (by simp [ownTexts]))
  have hb := isGroup_of_isBalanced (ha.append (ha.append hl (ha.spaced ho)) hr)
  rw [textAt]
  simpa [infixText] using hb

/-- An application is one group: a filter by key, because its conjunction is one. -/
theorem isGroup_textAt (ha : e.isApplication = true) (p : Position) (n : Nat) :
    isGroup (textAt (mode.spelling d) e p n).toList = true := by
  cases e with
  | binary left op right => exact isGroup_textAt_of_binary h d mode rfl p n
  | keyFilter f =>
    obtain ⟨left, op, right, hc⟩ := f.conjunction_eq_binary
    have hb := isBalanced_callerTexts_conjunction h
    have hg := isGroup_textAt_of_binary hb d mode hc p n
    rwa [(conjunction_written _ n f).2 p] at hg
  | _ => simp [isApplication] at ha

end Balanced

theorem isWrittenBare_of_isApplication {e : Expr} (h : ∀ s ∈ e.callerTexts, IsBalanced s.toList)
    (ha : e.isApplication = true) : e.IsWrittenBare := by
  have hc : e.isConstant = false := by cases e <;> simp_all [isApplication, isConstant]
  apply IsWrittenBare.of_pushOperand
  intro r
  have hw := @writes_renderTo r.dialect (r.mode.spelling r.dialect) e .reference r.mode.sink.length
  have ho := hw.pushOperand e r rfl rfl r.mode.startsAt_sink
  have hs := operand_of_standsAlone (s := textAt (r.mode.spelling r.dialect) e .reference
    r.mode.sink.length) (by simp [standsAlone, isGroup_textAt h r.dialect r.mode ha])
  rw [operandText, hc, if_neg (by decide), hs] at ho
  exact ho.trans (hw r rfl rfl r.mode.startsAt_sink).symm

/-- A rendering of balanced texts is balanced. In it every operator application is one group, and it
is written as it is wherever an operand that does not stand alone gets parentheses. -/
theorem render_balanced {e : Expr} (h : ∀ s ∈ e.callerTexts, IsBalanced s.toList) :
    (∀ (d : Dialect) (mode : Mode), IsBalanced (e.render d mode).sql.toList) ∧
      ∀ f ∈ e.unfoldedParts, f.isApplication = true →
        (∀ (d : Dialect) (mode : Mode), isGroup (f.render d mode).sql.toList = true) ∧
          f.IsWrittenBare := by
  constructor
  · intro d mode
    rw [sql_render]
    exact isBalanced_textAt h d mode .reference _
  · intro f hf ha
    have hb := isBalanced_callerTexts_of_mem_unfoldedParts h hf
    refine ⟨fun d mode => ?_, isWrittenBare_of_isApplication hb ha⟩
    rw [sql_render]
    exact isGroup_textAt hb d mode ha .reference _

/-- The quote, the backslash and the parenthesis of a string stay inside of the groups around it. -/
theorem render_balanced_around_quoted_string :
    let f : KeyFilter := ⟨⟨"t", [("a", .string "it's \\:)"), ("b", .null)]⟩, by decide⟩
    let e := (keyFilter f).or (raw ⟨"f(x) < 1", by decide⟩)
    (∀ s ∈ e.callerTexts, IsBalanced s.toList) ∧
      IsBalanced (e.render .mysql .literal).sql.toList ∧
      isGroup ((keyFilter f).render .mysql .literal).sql.toList = true ∧ (keyFilter f).IsWrittenBare := by
  intro f e
  have h : ∀ s ∈ e.callerTexts, IsBalanced s.toList := by decide
  have hf : keyFilter f ∈ e.unfoldedParts := by simp [e, f, Expr.or, combine, isEmpty, unfoldedParts, parts]
  have hb := (render_balanced h).2 (keyFilter f) hf rfl
  exact ⟨h, (render_balanced h).1 .mysql .literal, hb.1 .mysql .literal, hb.2⟩

end Expr

end SqlExpr
