import SqlExpr.Proofs.Emptiness
import SqlExpr.Proofs.Shape

/-! # The shape of expressions without text

An expression has no text exactly when it is the empty one, a column without a qualifier and a name, or
made of one such expression by columns that compute it and lists that have it as their only item, or a list
without items. So every part of it has no text either, and no kind of expression that always writes
something, such as a value, an operator or a query, is anywhere inside. Nothing else decides it: no dialect,
no mode, no sink and no value.
-/
namespace SqlExpr.Expr

/-- Nothing is written for the expression, as far as its shape tells. -/
inductive IsTextless : Expr → Prop
  | empty : IsTextless empty
  | unnamed (label : Option Word) : IsTextless (column none "" label)
  | computed {inner : Expr} (h : IsTextless inner) (label : Option Word) :
    IsTextless (computed inner label)
  | noItems : IsTextless (list [])
  | oneItem {e : Expr} (h : IsTextless e) : IsTextless (list [e])

theorem isTextless_of_isVoid {e : Expr} (h : e.isVoid = true) : IsTextless e := by
  induction e using children_induction with
  | h e ih =>
    cases e with
    | empty => exact .empty
    | column table name label =>
      cases table with
      | none =>
        obtain rfl : name = "" := by simpa [isVoid] using h
        exact .unnamed label
      | some table => simp [isVoid] at h
    | computed inner label =>
      rw [isVoid] at h
      exact .computed (ih inner (by simp [children]) h) label
    | list items =>
      rw [isVoid] at h
      match items with
      | [] => exact .noItems
      | [item] =>
        rw [areVoid] at h
        exact .oneItem (ih item (by simp [children]) h)
      | _ :: _ :: _ => simp [areVoid] at h
    | _ => simp [isVoid] at h

theorem isVoid_iff_isTextless {e : Expr} : e.isVoid = true ↔ IsTextless e := by
  refine ⟨isTextless_of_isVoid, fun h => ?_⟩
  induction h with
  | empty => rw [isVoid]
  | unnamed label => simp [isVoid]
  | computed _ _ ih => rwa [isVoid]
  | noItems => rw [isVoid, areVoid]
  | oneItem _ ih => rwa [isVoid, areVoid]

instance (e : Expr) : Decidable (IsTextless e) := decidable_of_iff _ isVoid_iff_isTextless

/-- The kinds of expressions that write something whatever they are made of: raw text, values, operators,
joins, queries and filters by key. -/
def alwaysWrites : Expr → Bool
  | raw _ | constant _ | binary .. | join .. | select .. | keyFilter _ => true
  | _ => false

namespace IsTextless

variable {e f : Expr}

theorem alwaysWrites_eq_false (h : IsTextless e) : e.alwaysWrites = false := by
  cases h <;> rfl

theorem of_mem_children (h : IsTextless e) (hf : f ∈ e.children) : IsTextless f := by
  cases h with
  | empty => cases hf
  | unnamed label => cases hf
  | computed h label => exact List.mem_singleton.mp hf ▸ h
  | noItems => cases hf
  | oneItem h => exact List.mem_singleton.mp hf ▸ h

theorem of_mem_parts (h : IsTextless e) (hf : f ∈ e.parts) : IsTextless f := by
  induction e using children_induction with
  | h e ih =>
    rcases mem_parts_iff.mp hf with rfl | ⟨g, hg, hf⟩
    · exact h
    · exact ih g hg (h.of_mem_children hg) hf

end IsTextless

/-- Without text there is nothing to be filled with a value either. -/
theorem isTextless_iff_skeleton {e : Expr} : IsTextless e ↔ e.skeleton .reference = [] := by
  have hs := spelling_ne_empty .ansi []
  rw [← isVoid_iff_isTextless, ← textAt_eq_empty_iff hs e 0,
    (fits_bound .ansi [] e .reference 0).eq_empty_iff hs]

theorem isTextless_iff_of_blank_eq {e e' : Expr} (h : e.blank = e'.blank) :
    IsTextless e ↔ IsTextless e' := by
  rw [isTextless_iff_skeleton, isTextless_iff_skeleton, skeleton_eq_of_blank_eq h]

theorem renderTo_eq_self_iff {e : Expr} {r : Renderer} :
    renderTo e .reference r = r ↔ IsTextless e := by
  rw [← isVoid_iff_isTextless]
  constructor
  · intro h
    rw [renderTo_eq_extend e .reference r.mode.startsAt_sink] at h
    have hs := String.append_eq_left_iff.mp (congrArg Renderer.sql h)
    exact (textAt_eq_empty_iff (r.mode.spelling_ne_empty r.dialect) e _).mp hs
  · intro h
    exact renderTo_of_isVoid h r

theorem sql_render_eq_empty_iff_isTextless {e : Expr} {d : Dialect} {mode : Mode} :
    (e.render d mode).sql = "" ↔ IsTextless e := by
  rw [sql_render_eq_empty_iff, isVoid_iff_isTextless]

/-- Whether an expression has text is a matter of its shape. The shape is that of an expression without text
exactly when rendering leaves every renderer as it was, with its sink and its count of values bound. So other
values, another dialect, another mode and another sink make no difference, and where raw text, a value, an
operator, a join, a query or a filter by key is anywhere inside there is text. -/
theorem render_empty_iff_isTextless (e : Expr) (d : Dialect) (mode : Mode) :
    ((e.render d mode).sql = "" ↔ IsTextless e) ∧
      (∀ r : Renderer, renderTo e .reference r = r ↔ IsTextless e) ∧
      (∀ e' : Expr, e.blank = e'.blank → ∀ (d' : Dialect) (mode' : Mode),
        (e.render d mode).sql = "" ↔ (e'.render d' mode').sql = "") ∧
      ((∃ f ∈ e.parts, f.alwaysWrites = true) → (e.render d mode).sql ≠ "") := by
  refine ⟨sql_render_eq_empty_iff_isTextless, fun r => renderTo_eq_self_iff, ?_, ?_⟩
  · intro e' hb d' mode'
    rw [sql_render_eq_empty_iff_isTextless, sql_render_eq_empty_iff_isTextless,
      isTextless_iff_of_blank_eq hb]
  · rintro ⟨f, hf, hw⟩ he
    have ht := (sql_render_eq_empty_iff_isTextless.mp he).of_mem_parts hf
    rw [ht.alwaysWrites_eq_false] at hw
    cases hw

/-- The empty string has a literal and a placeholder, also behind a list and a column that computes it. -/
theorem render_empty_iff_isTextless_around_empty_string :
    let e := list [computed (constant (.string "")) none]
    let e' := list [computed (constant (.bytes [])) none]
    (e.blank = e'.blank ∧ ∃ f ∈ e.parts, f.alwaysWrites = true) ∧
      (e.render .postgres .literal).sql ≠ "" ∧
      ((e.render .postgres .literal).sql = "" ↔ (e'.render .mysql (.bind [.null])).sql = "") := by
  intro e e'
  have hb : e.blank = e'.blank := by simp [e, e', blank, blankItems]
  have hf : ∃ f ∈ e.parts, f.alwaysWrites = true :=
    ⟨constant (.string ""), by simp [e, parts, itemParts], rfl⟩
  obtain ⟨_, _, hsame, hwrites⟩ := render_empty_iff_isTextless e .postgres .literal
  exact ⟨⟨hb, hf⟩, hwrites hf, hsame e' hb .mysql (.bind [.null])⟩

/-- A column without a name has no text as the only item of a list, and two such columns have a comma. -/
example :
    IsTextless (list [computed (named "") none]) ∧ ¬ IsTextless (list [named "", named ""]) := by
  decide

end SqlExpr.Expr
