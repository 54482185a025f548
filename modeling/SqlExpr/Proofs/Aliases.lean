import SqlExpr.Expr.Combine
import SqlExpr.Expr.Qualifiers
import SqlExpr.Expr.Select
import SqlExpr.Render.Basic

/-! # Where aliases act

An alias shows at a top item of a select list and nowhere else. Dropping all others changes neither
rendering nor the tables that are found, and a top item is rendered as it is anywhere else with its alias
behind it. The proofs go along the recursion of rendering, so that both hold for each query inside of
another.
-/
namespace SqlExpr

def Position.shownLabel (label : Option Word) : Position → Option Word
  | reference => none
  | _ => label

@[simp] theorem Position.shownAlias_shownLabel (p : Position) (label : Option Word) :
    p.shownAlias (p.shownLabel label) = p.shownAlias label := by
  cases p <;> rfl

namespace Expr

mutual
/-- The expression without the aliases of columns that are not top items of a select list. -/
def visible : Expr → Position → Expr
  | empty, _ => empty
  | raw sql, _ => raw sql
  | column table name label, p => column table name (p.shownLabel label)
  | computed inner label, p => computed (visible inner .reference) (p.shownLabel label)
  | constant v, _ => constant v
  | binary left op right, _ => binary (visible left .reference) op (visible right .reference)
  | join kind left right condition, _ =>
    join kind (visible left .reference) (visible right .reference) (visible condition .reference)
  | list items, p => list (visibleItems items p.ofItems)
  | select columns source condition grouping having ordering, _ =>
    select (visible columns .selectList) (visible source .reference) (visible condition .reference)
      (visible grouping .reference) (visible having .reference) (visible ordering .reference)
  | keyFilter f, _ => keyFilter f

def visibleItems : List Expr → Position → List Expr
  | [], _ => []
  | e :: es, p => visible e p :: visibleItems es p
end

section Visible

variable (e : Expr) (p : Position)

theorem isEmpty_visible : (e.visible p).isEmpty = e.isEmpty := by cases e <;> rfl

theorem isConstant_visible : (e.visible p).isConstant = e.isConstant := by cases e <;> rfl

theorem isSelect_visible : (e.visible p).isSelect = e.isSelect := by cases e <;> rfl

theorem pushOperand_visible (r : Renderer) :
    r.pushOperand (e.visible p) = r.pushOperand e := by
  funext step
  rw [Renderer.pushOperand, Renderer.pushOperand, isConstant_visible]

theorem pushSource_visible (r : Renderer) : r.pushSource (e.visible p) = r.pushSource e := by
  funext step
  have hs : Renderer.sourceText (e.visible p) = Renderer.sourceText e := by
    funext s
    rw [Renderer.sourceText, Renderer.sourceText, isSelect_visible]
  rw [Renderer.pushSource, Renderer.pushSource, hs]

theorem pushClause_visible (r : Renderer) (keyword : String) :
    r.pushClause keyword (e.visible p) = r.pushClause keyword e := by
  funext step
  rw [Renderer.pushClause, Renderer.pushClause, isEmpty_visible]

end Visible

mutual
theorem renderTo_visible : ∀ (e : Expr) (p : Position), renderTo (e.visible p) p = renderTo e p
  | empty, _ => rfl
  | raw _, _ => rfl
  | column table name label, p => by
    funext r
    rw [visible, renderTo, renderTo, p.shownAlias_shownLabel]
  | computed inner label, p => by
    have hi := renderTo_visible inner .reference
    funext r
    simp only [visible, renderTo, hi, pushOperand_visible, p.shownAlias_shownLabel]
  | constant _, _ => rfl
  | binary left op right, p => by
    have hl := renderTo_visible left .reference
    have hr := renderTo_visible right .reference
    funext r
    simp only [visible, renderTo, hl, hr, pushOperand_visible]
  | join kind left right condition, p => by
    have hl := renderTo_visible left .reference
    have hr := renderTo_visible right .reference
    have hc := renderTo_visible condition .reference
    funext r
    simp only [visible, renderTo, hl, hr, hc, pushSource_visible, pushOperand_visible]
  | list items, p => by
    funext r
    rw [visible, renderTo, renderTo, renderItemsTo_visibleItems items p.ofItems]
  | select columns source condition grouping having ordering, p => by
    have hc := renderTo_visible columns .selectList
    have hs := renderTo_visible source .reference
    have hw := renderTo_visible condition .reference
    have hg := renderTo_visible grouping .reference
    have hh := renderTo_visible having .reference
    have ho := renderTo_visible ordering .reference
    funext r
    simp only [visible, renderTo, hc, hs, hw, hg, hh, ho, pushSource_visible, pushClause_visible]
  | keyFilter _, _ => rfl

theorem renderItemsTo_visibleItems : ∀ (es : List Expr) (p : Position),
    renderItemsTo (visibleItems es p) p = renderItemsTo es p
  | [], _ => rfl
  | [e], p => by
    have he := renderTo_visible e p
    funext r
    rw [visibleItems, visibleItems, renderItemsTo, renderItemsTo, he]
  | e :: f :: es, p => by
    have he := renderTo_visible e p
    have hs := renderItemsTo_visibleItems (f :: es) p
    rw [visibleItems] at hs
    funext r
    rw [visibleItems, visibleItems, renderItemsTo, renderItemsTo, he, hs]
end

mutual
theorem qualifiers_visible : ∀ (e : Expr) (p : Position), (e.visible p).qualifiers = e.qualifiers
  | empty, _ => rfl
  | raw _, _ => rfl
  | column _ _ _, _ => rfl
  | computed inner _, _ => qualifiers_visible inner .reference
  | constant _, _ => rfl
  | binary left _ right, _ => by
    rw [visible, qualifiers, qualifiers, qualifiers_visible left, qualifiers_visible right]
  | join _ left right condition, _ => by
    rw [visible, qualifiers, qualifiers, qualifiers_visible left, qualifiers_visible right,
      qualifiers_visible condition]
  | list items, p => itemQualifiers_visibleItems items p.ofItems
  | select columns source condition grouping having ordering, _ => by
    rw [visible, qualifiers, qualifiers, qualifiers_visible columns, qualifiers_visible source,
      qualifiers_visible condition, qualifiers_visible grouping, qualifiers_visible having,
      qualifiers_visible ordering]
  | keyFilter _, _ => rfl

theorem itemQualifiers_visibleItems : ∀ (es : List Expr) (p : Position),
    itemQualifiers (visibleItems es p) = itemQualifiers es
  | [], _ => rfl
  | e :: es, p => by
    rw [visibleItems, itemQualifiers, itemQualifiers, qualifiers_visible e,
      itemQualifiers_visibleItems es]
end

def aliasSuffix : Expr → String
  | column _ _ (some w) => " AS " ++ w.text
  | computed _ (some w) => " AS " ++ w.text
  | _ => ""

/-- The top items of a select list: its items if it is a list, else the one that it is. -/
def topItems : Expr → List Expr
  | list items => items
  | e => [e]

/-- Items as they are rendered anywhere, each with its alias behind it, and with commas between them. -/
def renderTopItems : List Expr → Renderer → Renderer
  | [], r => r
  | [e], r => (renderTo e .reference r).push e.aliasSuffix
  | e :: f :: es, r =>
    renderTopItems (f :: es) (((renderTo e .reference r).push e.aliasSuffix).push ", ")

theorem push_aliased (r : Renderer) (s : String) (w : Word) :
    r.push (Fragment.aliased s w.text) = (r.push s).push (" AS " ++ w.text) := by
  simp [Fragment.aliased, w.ne_empty, Renderer.push, String.append_assoc]

theorem pushFragment_aliased (r : Renderer) (step : Renderer → Renderer) (w : Word) :
    r.pushFragment (Fragment.aliased · w.text) step =
      (r.pushFragment (Fragment.aliased · "") step).push (" AS " ++ w.text) :=
  push_aliased _ _ w

/-- As an item of a select list an expression is what it is anywhere else, with its alias behind it. -/
theorem renderTo_item (e : Expr) (r : Renderer) :
    renderTo e .item r = (renderTo e .reference r).push e.aliasSuffix := by
  have hpush : ∀ r : Renderer, r.push "" = r := fun r => by simp [Renderer.push]
  cases e with
  | column table name label =>
    cases label with
    | none => exact (hpush _).symm
    | some w =>
      rw [renderTo, renderTo]
      exact push_aliased r _ w
  | computed inner label =>
    cases label with
    | none => exact (hpush _).symm
    | some w =>
      rw [renderTo, renderTo]
      exact pushFragment_aliased r _ w
  | _ => exact (hpush _).symm

theorem renderItemsTo_item (es : List Expr) (r : Renderer) :
    renderItemsTo es .item r = renderTopItems es r := by
  induction es generalizing r with
  | nil => rfl
  | cons e es ih =>
    cases es with
    | nil => exact renderTo_item e r
    | cons f es => rw [renderItemsTo, renderTopItems, ih, renderTo_item]

theorem renderTo_selectList (e : Expr) : renderTo e .selectList = renderTopItems e.topItems := by
  funext r
  cases e with
  | list items =>
    rw [renderTo]
    exact renderItemsTo_item items r
  | _ =>
    simp only [topItems, renderTopItems, ← renderTo_item]
    rfl

end Expr

def Select.pushClauses (q : Select) (r : Renderer) : Renderer :=
  let r := r.pushClause "FROM" q.source (·.pushSource q.source (Expr.renderTo q.source .reference))
  let r := r.pushClause "WHERE" q.condition (Expr.renderTo q.condition .reference)
  let r := r.pushClause "GROUP BY" q.grouping (Expr.renderTo q.grouping .reference)
  let r := r.pushClause "HAVING" q.having (Expr.renderTo q.having .reference)
  r.pushClause "ORDER BY" q.ordering (Expr.renderTo q.ordering .reference)

namespace Expr

/-- Expressions that differ only in aliases of columns that are not top items of a select list are
rendered alike and name the same tables. In each query, wherever it stands, a top item is rendered as it
is anywhere else, with its alias behind it. -/
theorem aliases_act_on_top_items :
    (∀ e e' : Expr, e.visible .reference = e'.visible .reference →
      (∀ d mode, e.render d mode = e'.render d mode) ∧
        ∀ known, e.addTables known = e'.addTables known) ∧
      ∀ (q : Select) (p : Position) (r : Renderer),
        renderTo q.toExpr p r =
          q.pushClauses ((r.push "SELECT ").pushFragment Renderer.columnsText
            (renderTopItems q.columns.topItems)) := by
  refine ⟨fun e e' h => ⟨fun d mode => ?_, fun known => ?_⟩, fun q p r => ?_⟩
  · rw [render, render, ← renderTo_visible e, h, renderTo_visible]
  · rw [addTables_eq_foldl, addTables_eq_foldl, ← qualifiers_visible e .reference, h, qualifiers_visible]
  · rw [Select.toExpr, renderTo, renderTo_selectList]
    rfl

/-- The alias of a column in a condition does not show, that of the column in the select list does. -/
theorem aliases_act_on_column_of_select_list :
    let query := fun label => ((Select.ofColumns (column none "a" (Word.ofText? "x"))).set .condition
      (filter .eq "b" .null |>.and (column none "c" label))).toExpr
    (query (Word.ofText? "y")).visible .reference = (query none).visible .reference ∧
      ((query (Word.ofText? "y")).render .ansi .literal).sql =
        ((query none).render .ansi .literal).sql ∧
      ((query none).render .ansi .literal).sql = "SELECT a AS x WHERE ((b = NULL) AND c)" := by
  intro query
  have h : (query (Word.ofText? "y")).visible .reference = (query none).visible .reference := rfl
  have ha := (aliases_act_on_top_items.1 _ _ h).1 .ansi .literal
  exact ⟨h, congrArg Renderer.sql ha, by decide +kernel⟩

end Expr

end SqlExpr
