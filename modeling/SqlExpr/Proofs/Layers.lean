import SqlExpr.Proofs.Balance
import SqlExpr.Proofs.Inlining
import SqlExpr.Proofs.Surroundings

/-! # Constants behind layers

A constant that is an operand itself never gets parentheses. Behind columns computed from it and lists of
one item it is judged by its text: a placeholder still stands alone, and so does a literal, unless it is a
number whose exponent has a sign. That one gets a single pair of parentheses, however many layers there
are, while its placeholder gets none.
-/
namespace SqlExpr
open Fragment

def Frame.isOperand : Frame → Bool
  | computed _ => true
  | leftOperand _ _ => true
  | rightOperand _ _ => true
  | joinCondition _ _ _ => true
  | _ => false

theorem Frame.wrap_of_isOperand {F : Frame} (hF : F.isOperand = true) (e : Expr) (s : String) :
    F.wrap e s = e.operandText s := by
  cases F <;> simp_all [isOperand, wrap]

theorem Frame.place_of_isOperand {F : Frame} (hF : F.isOperand = true) (p : Position) :
    F.place p = .reference := by
  cases F <;> simp_all [isOperand, place]

namespace Expr

/-- What holds of a constant and goes over to the column computed from an expression and to the list of
that one item holds of the constant behind any number of layers. -/
theorem soleConstant_induction {v : Value} {P : Expr → Prop} (one : P (constant v))
    (column : ∀ inner label, P inner → P (computed inner label)) (item : ∀ f, P f → P (list [f]))
    {e : Expr} (h : e.soleConstant? = some v) : P e := by
  induction e using children_induction with
  | h e ih =>
    cases e with
    | constant w =>
      obtain rfl : w = v := by simpa [soleConstant?] using h
      exact one
    | computed inner label =>
      rw [soleConstant?] at h
      exact column inner label (ih inner (by simp [children]) h)
    | list items =>
      rw [soleConstant?] at h
      match items with
      | [] => simp [soleItem?] at h
      | [f] =>
        rw [soleItem?] at h
        exact item f (ih f (by simp [children]) h)
      | _ :: _ :: _ => simp [soleItem?] at h
    | _ => simp [soleConstant?] at h

section Layers

variable {e : Expr} {v : Value} (h : e.soleConstant? = some v)
include h

theorem constants_of_soleConstant : e.constants = [v] := by
  refine soleConstant_induction (P := fun e => e.constants = [v]) ?_ ?_ ?_ h
  · rw [constants]
  · intro inner label hi
    rw [constants, hi]
  · intro f hf
    rw [constants, itemConstants, itemConstants, hf, List.append_nil]

theorem operand_textAt_of_soleConstant (d : Dialect) (mode : Mode) (n : Nat) :
    operand (textAt (mode.spelling d) e .reference n) = operand (mode.spelling d n v) := by
  refine soleConstant_induction (v := v) (P := fun e =>
    operand (textAt (mode.spelling d) e .reference n) = operand (mode.spelling d n v)) ?_ ?_ ?_ h
  · rw [textAt]
  · intro inner label hi
    rw [textAt, Position.shownAlias, aliased_empty, operandText]
    split
    · exact hi
    · rw [hi, operand_operand (mode.isBalanced_spelling d n v)]
  · intro f hf
    rwa [textAt, itemsTextAt]

theorem textAt_ne_empty_of_soleConstant (d : Dialect) (mode : Mode) (n : Nat) :
    textAt (mode.spelling d) e .reference n ≠ "" := by
  have ho := operand_textAt_of_soleConstant h d mode n
  intro he
  rw [he, operand_empty] at ho
  exact mode.spelling_ne_empty d n v (operand_eq_empty_iff.mp ho.symm)

theorem sql_render_fill_of_soleConstant {F : Frame} (hF : F.isOperand = true)
    (he : e.isConstant = false) (d : Dialect) (mode : Mode) :
    ((F.fill e).render d mode).sql =
      F.textBefore (mode.spelling d) .reference mode.sink.length ++
        operand (mode.spelling d (mode.sink.length + F.before.length) v) ++
        F.textAfter (mode.spelling d) .reference (mode.sink.length + F.before.length + 1) := by
  have hn := textAt_ne_empty_of_soleConstant h d mode (mode.sink.length + F.before.length)
  have ht := F.textAt_fill (e := e) (mode.spelling d) .reference mode.sink.length
  rw [F.place_of_isOperand hF, F.wrap_of_isOperand hF, operandText, he, if_neg (by decide),
    operand_textAt_of_soleConstant h d mode, constants_of_soleConstant h] at ht
  rw [sql_render, ht hn]
  rfl

end Layers

theorem operand_literal (d : Dialect) (v : Value) :
    operand (d.literal v) =
      if v.hasSignedExponent then parenthesized (d.literal v) else d.literal v := by
  unfold operand
  rw [d.standsAlone_literal_eq]
  cases v.hasSignedExponent <;> rfl

theorem replacePlaceholders_placeholder (d : Dialect) (n : Nat) (t : List Char) :
    Text.replacePlaceholders false [t] (d.placeholder n).toList = t := by
  have hn : ∀ c, ([] : List Char).head? = some c → c.isDigit = false := by simp
  have hr := Text.replacePlaceholders_mark_append (d.isMark_placeholder n) hn t []
  simpa [Text.replacePlaceholders] using hr

/-- Behind at least one layer, a constant is bound as it is when it is an operand itself. In literal mode
it takes the same place, but a number with a signed exponent gets parentheses that its placeholder does
not have. -/
theorem layered_constant_in_both_modes {F : Frame} (hF : F.isOperand = true) {e : Expr} {v : Value}
    (hv : e.soleConstant? = some v) (he : e.isConstant = false) (d : Dialect) :
    ∃ written : Mode → String,
      (∀ mode : Mode, ((F.fill e).render d mode).sql =
        F.textBefore (mode.spelling d) .reference mode.sink.length ++ written mode ++
          F.textAfter (mode.spelling d) .reference (mode.sink.length + F.before.length + 1)) ∧
      (∀ sink, written (.bind sink) = d.placeholder (sink.length + F.before.length)) ∧
      written .literal =
        (if v.hasSignedExponent then parenthesized (d.literal v) else d.literal v) ∧
      ∀ sink, (written .literal).toList = Text.replacePlaceholders false [(d.literal v).toList]
        (written (.bind sink)).toList ↔ v.hasSignedExponent = false := by
  have hb : ∀ sink : List Value, operand ((Mode.bind sink).spelling d
      (sink.length + F.before.length) v) = d.placeholder (sink.length + F.before.length) := fun sink =>
    operand_of_standsAlone (d.standsAlone_placeholder _)
  refine ⟨fun mode => operand (mode.spelling d (mode.sink.length + F.before.length) v),
    sql_render_fill_of_soleConstant hv hF he d, hb, operand_literal d v, fun sink => ?_⟩
  have hl : operand (Mode.literal.spelling d (Mode.literal.sink.length + F.before.length) v) = _ :=
    operand_literal d v
  simp only [Mode.sink] at hl hb ⊢
  rw [hl, hb, replacePlaceholders_placeholder]
  cases v.hasSignedExponent with
  | false => simp
  | true =>
    -- The parentheses make the text longer.
    have hn : (parenthesized (d.literal v)).toList ≠ (d.literal v).toList := fun hp => by
      have hlen := congrArg List.length hp
      simp only [parenthesized, String.toList_append, List.length_append] at hlen
      have ho : "(".toList.length = 1 := rfl
      omega
    simpa using hn

/-- A small decimal in a list of one item keeps its placeholder bare and has its literal in
parentheses. -/
theorem layered_constant_in_list_of_one_decimal :
    let F := Frame.rightOperand (named "a") "IN"
    let e := list [constant (.decimal ⟨1, 9⟩)]
    (F.isOperand = true ∧ e.soleConstant? = some (.decimal ⟨1, 9⟩) ∧ e.isConstant = false) ∧
      ∃ written : Mode → String,
        ((F.fill e).render .postgres .literal).sql =
          F.textBefore (Mode.literal.spelling .postgres) .reference 0 ++ written .literal ++
            F.textAfter (Mode.literal.spelling .postgres) .reference 1 ∧
        written .literal = "(1E-9)" ∧ written (.bind [.null]) = "$2" := by
  intro F e
  have hv : e.soleConstant? = some (.decimal ⟨1, 9⟩) := by simp [e, soleConstant?, soleItem?]
  refine ⟨⟨rfl, hv, rfl⟩, ?_⟩
  obtain ⟨written, ht, hb, hl, _⟩ := layered_constant_in_both_modes (F := F) rfl hv rfl .postgres
  refine ⟨written, ht .literal, hl.trans (by decide +kernel), (hb [.null]).trans (by decide +kernel)⟩

/-- A column computed from a tiny float gets parentheses in literal mode and none in bind mode. -/
theorem layered_constant_wrapped_in_one_mode :
    let e := binary (named "x") "=" (computed (constant (.float ⟨0x3E7AD7F29ABCAF48⟩)) none)
    (e.boundSql .ansi).1 = "(x = ?)" ∧ e.literalSql .ansi = "(x = (1e-7))" := by
  decide +kernel

end Expr

end SqlExpr
