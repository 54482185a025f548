import SqlExpr.Expr.Select
import SqlExpr.Proofs.Bracketings
import SqlExpr.Proofs.Emptiness

/-! # Operands without text

Conjunction and disjunction leave out the empty expression and nothing else. An operand that is written as
nothing but is not the empty expression stays, and its operator dangles. A query, on the other hand, leaves
out each clause that is written as nothing.
-/
namespace SqlExpr

namespace Renderer

section Nothing

variable {step : Renderer → Renderer} (hs : ∀ r, step r = r)
include hs

theorem pushFragment_of_nothing {change : String → String} (hc : change "" = "") (r : Renderer) :
    r.pushFragment change step = r := by
  simp [pushFragment, fragment, hs, hc, push]

theorem pushClause_of_nothing (keyword : String) (e : Expr) (r : Renderer) :
    r.pushClause keyword e step = r := by
  unfold pushClause
  split
  · rfl
  · exact pushFragment_of_nothing hs rfl r

end Nothing

theorem pushClause_empty (keyword : String) (step : Renderer → Renderer) (r : Renderer) :
    r.pushClause keyword .empty step = r := rfl

theorem pushSource_of_isVoid {e : Expr} (h : e.isVoid = true) (r : Renderer) :
    r.pushSource e (Expr.renderTo e .reference) = r := by
  have hs : e.isSelect = false := by
    cases e with
    | select => simp [Expr.isVoid] at h
    | _ => rfl
  exact pushFragment_of_nothing (Expr.renderTo_of_isVoid h) (by simp [sourceText, hs]) r

end Renderer

/-- A clause that is written as nothing may as well not be set. -/
theorem Select.renderTo_set_of_isVoid {e : Expr} (h : e.isVoid = true) (q : Select) (c : Clause)
    (p : Position) (r : Renderer) :
    Expr.renderTo (q.set c e).toExpr p r = Expr.renderTo (q.set c .empty).toExpr p r := by
  cases c with
  | source =>
    simp only [set, toExpr, Expr.renderTo, Renderer.pushClause_empty,
      Renderer.pushClause_of_nothing (Renderer.pushSource_of_isVoid h)]
  | _ =>
    simp only [set, toExpr, Expr.renderTo, Renderer.pushClause_empty,
      Renderer.pushClause_of_nothing (Expr.renderTo_of_isVoid h)]

namespace Expr

theorem length_le_operandText (e : Expr) (s : String) : s.length ≤ (e.operandText s).length := by
  unfold operandText Fragment.operand Fragment.parenthesized
  split
  · rfl
  · split
    · rfl
    · simp only [String.length_append]
      omega

theorem render_of_isVoid {a : Expr} (h : a.isVoid = true) (d : Dialect) (mode : Mode) :
    a.render d mode = .start d mode :=
  renderTo_of_isVoid h _

end Expr

namespace Connective

variable (c : Connective) (d : Dialect) (mode : Mode) {a b : Expr}

/-- Where neither operand is the empty expression, the one without text leaves its place empty. -/
theorem sql_join_of_isVoid (ha : a.isVoid = true) (hea : a.isEmpty = false) (heb : b.isEmpty = false) :
    ((c.join a b).render d mode).sql =
        "( " ++ c.word ++ " " ++ b.operandText (b.render d mode).sql ++ ")" ∧
      ((c.join b a).render d mode).sql =
        "(" ++ b.operandText (b.render d mode).sql ++ " " ++ c.word ++ " )" := by
  have ht : a.operandText "" = "" := Expr.operandText_eq_empty_iff.mpr rfl
  have hs : ∀ mode, (a.render d mode).sql = "" := fun _ => Expr.sql_render_eq_empty_iff.mpr ha
  have hm : (a.render d mode).mode = mode := congrArg Renderer.mode (Expr.render_of_isVoid ha d mode)
  rw [c.join_eq, c.join_eq, Expr.combine_of_not_isEmpty hea heb, Expr.combine_of_not_isEmpty heb hea,
    Expr.sql_render_binary, Expr.sql_render_binary, hs, hs, ht, hm]
  have hopen : "( " = "(" ++ " " := by decide
  have hclose : " )" = " " ++ ")" := by decide
  rw [hopen, hclose, Expr.infixText, Expr.infixText]
  constructor <;> simp only [String.append_assoc, String.empty_append]

theorem sql_join_ne_of_isVoid (ha : a.isVoid = true) (hea : a.isEmpty = false)
    (heb : b.isEmpty = false) :
    ((c.join a b).render d mode).sql ≠ (b.render d mode).sql ∧
      ((c.join b a).render d mode).sql ≠ (b.render d mode).sql := by
  obtain ⟨hab, hba⟩ := c.sql_join_of_isVoid d mode ha hea heb
  have hl := b.length_le_operandText (b.render d mode).sql
  have hone : ")".length = 1 := rfl
  have htwo : " )".length = 2 := rfl
  rw [hab, hba]
  constructor <;>
  · intro he
    have hlen := congrArg String.length he
    simp only [String.length_append] at hlen
    omega

theorem constants_join : (c.join a b).constants = a.constants ++ b.constants := by
  rw [c.join_eq, Expr.combine]
  split
  · rename_i he
    rw [Expr.constants_of_isEmpty he, List.nil_append]
  · split
    · rename_i he
      rw [Expr.constants_of_isEmpty he, List.append_nil]
    · rw [Expr.constants]

/-- The empty expression is an identity, and of an operand without text next to one that is empty nothing
is to be seen. -/
theorem render_join_of_isEmpty (ha : a.isVoid = true) (h : a.isEmpty = true ∨ b.isEmpty = true) :
    (c.join a b).render d mode = b.render d mode ∧ (c.join b a).render d mode = b.render d mode := by
  have hv : b.isEmpty = true → a.render d mode = b.render d mode := by
    intro hb
    rw [Expr.render_of_isVoid ha, Expr.render_of_isVoid (Expr.isVoid_of_isEmpty hb)]
  rw [c.join_eq, c.join_eq, Expr.combine, Expr.combine]
  cases hea : a.isEmpty with
  | true =>
    cases heb : b.isEmpty with
    | true => exact ⟨rfl, hv heb⟩
    | false => exact ⟨rfl, rfl⟩
  | false =>
    have hb : b.isEmpty = true := by simpa [hea] using h
    simp [hb, hv hb]

/-- An operand without text leaves conjunction and disjunction alone when one of both operands is the empty
expression, and in no other case: then its operator dangles. The values bound are those of the other operand
in any case, and a query leaves out a clause that is set to such an operand. -/
theorem operand_without_text (ha : (a.render d mode).sql = "") (b : Expr) :
    (((c.join a b).render d mode = b.render d mode ↔ a.isEmpty = true ∨ b.isEmpty = true) ∧
        ((c.join b a).render d mode = b.render d mode ↔ a.isEmpty = true ∨ b.isEmpty = true)) ∧
      (a.isEmpty = false → b.isEmpty = false →
        ((c.join a b).render d mode).sql =
            "( " ++ c.word ++ " " ++ b.operandText (b.render d mode).sql ++ ")" ∧
          ((c.join b a).render d mode).sql =
            "(" ++ b.operandText (b.render d mode).sql ++ " " ++ c.word ++ " )") ∧
      (((c.join a b).render d mode).mode = (b.render d mode).mode ∧
        ((c.join b a).render d mode).mode = (b.render d mode).mode) ∧
      ∀ (q : Select) (clause : Clause),
        (q.set clause a).toExpr.render d mode = (q.set clause .empty).toExpr.render d mode := by
  have hv : a.isVoid = true := Expr.sql_render_eq_empty_iff.mp ha
  have hc : a.constants = [] := Expr.constants_of_isVoid hv
  have hn : ¬ (a.isEmpty = true ∨ b.isEmpty = true) → a.isEmpty = false ∧ b.isEmpty = false := by
    simp
  refine ⟨⟨⟨fun he => ?_, fun h => (c.render_join_of_isEmpty d mode hv h).1⟩,
    ⟨fun he => ?_, fun h => (c.render_join_of_isEmpty d mode hv h).2⟩⟩,
    c.sql_join_of_isVoid d mode hv, ?_, fun q clause => q.renderTo_set_of_isVoid hv clause .reference _⟩
  · by_contra h
    exact (c.sql_join_ne_of_isVoid d mode hv (hn h).1 (hn h).2).1 (congrArg Renderer.sql he)
  · by_contra h
    exact (c.sql_join_ne_of_isVoid d mode hv (hn h).1 (hn h).2).2 (congrArg Renderer.sql he)
  · simp only [Expr.mode_render, constants_join, hc, List.nil_append, List.append_nil, and_self]

/-- A computed column over a list without items is such an operand. -/
theorem operand_without_text_of_computed_list :
    let a := Expr.computed (.list []) none
    let b := Expr.filter .eq "x" (.int 1)
    (a.render .postgres (.bind [.null])).sql = "" ∧
      ((Connective.or.join a b).render .postgres (.bind [.null])).sql = "( OR (x = $2))" ∧
      ((Connective.or.join b a).render .postgres (.bind [.null])).sql = "((x = $2) OR )" ∧
      (((Select.ofColumns b).set .condition a).toExpr.render .postgres (.bind [.null])).sql =
        "SELECT (x = $2)" := by
  intro a b
  have ha : (a.render .postgres (.bind [.null])).sql = "" := by decide +kernel
  obtain ⟨_, ht, _, hq⟩ := Connective.or.operand_without_text .postgres (.bind [.null]) ha b
  obtain ⟨hab, hba⟩ := ht rfl rfl
  refine ⟨ha, hab.trans (by decide +kernel), hba.trans (by decide +kernel), ?_⟩
  rw [hq]
  decide +kernel

/-- A list without items and a column, joined in either order. -/
theorem operator_dangles_beside_list_without_items :
    let a := Expr.list []
    let b := Expr.named "x"
    (a.literalSql .ansi = "" ∧ b.literalSql .ansi = "x") ∧
      ((a.and b).literalSql .ansi = "( AND x)" ∧ (b.or a).literalSql .ansi = "(x OR )") ∧
      ¬ ∀ a b : Expr, a.literalSql .ansi = "" → (a.and b).literalSql .ansi = b.literalSql .ansi := by
  intro a b
  have ha : a.literalSql .ansi = "" := by decide +kernel
  have hb : b.literalSql .ansi = "x" := by decide +kernel
  have hab : (a.and b).literalSql .ansi = "( AND x)" := by decide +kernel
  refine ⟨⟨ha, hb⟩, ⟨hab, by decide +kernel⟩, fun h => ?_⟩
  have he := h a b ha
  rw [hab, hb] at he
  exact absurd he (by decide)

end Connective

end SqlExpr
