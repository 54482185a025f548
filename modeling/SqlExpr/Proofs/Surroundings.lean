import Mathlib.Tactic.Tauto
import SqlExpr.Proofs.Filling
import SqlExpr.Proofs.Layout
import SqlExpr.Proofs.Parts

/-! # Surroundings

Every place of an expression inside a larger one is a sequence of frames, each a node with one of its
children missing. The text and the constants of a filled frame are those in front of the child, those of
the child, and those behind it; what stands around the child depends on nothing of it but how many
constants it has.
-/
namespace SqlExpr

/-- A node with one of its children missing. -/
inductive Frame where
  | computed (label : Option Word)
  | leftOperand (op : String) (right : Expr)
  | rightOperand (left : Expr) (op : String)
  | joinLeft (kind : JoinKind) (right condition : Expr)
  | joinRight (kind : JoinKind) (left condition : Expr)
  | joinCondition (kind : JoinKind) (left right : Expr)
  | item (before after : List Expr)
  | columns (query : Select)
  | clause (query : Select) (c : Clause)

namespace Frame

def fill : Frame → Expr → Expr
  | computed label, e => .computed e label
  | leftOperand op right, e => .binary e op right
  | rightOperand left op, e => .binary left op e
  | joinLeft kind right condition, e => .join kind e right condition
  | joinRight kind left condition, e => .join kind left e condition
  | joinCondition kind left right, e => .join kind left right e
  | item before after, e => .list (before ++ e :: after)
  | columns q, e => { q with columns := e }.toExpr
  | clause q c, e => (q.set c e).toExpr

/-- A query gets parentheses here: as an operand, as a source, as what a column is computed from and as
the condition of a join. -/
def encloses : Frame → Bool
  | item .. => false
  | columns _ => false
  | clause _ c => c == .source
  | _ => true

def place : Frame → Position → Position
  | item .., p => p.ofItems
  | columns _, _ => .selectList
  | _, _ => .reference

def wrap : Frame → Expr → String → String
  | joinLeft .., e, s => Renderer.sourceText e s
  | joinRight .., e, s => Renderer.sourceText e s
  | item .., _, s => s
  | columns _, _, s => s
  | clause _ c, e, s => c.operandText e s
  | _, e, s => e.operandText s

def before : Frame → List Value
  | rightOperand left _ => left.constants
  | joinRight _ left _ => left.constants
  | joinCondition _ left right => left.constants ++ right.constants
  | item es _ => Expr.itemConstants es
  | clause q c => q.columns.constants ++ q.clauseConstants c.earlier
  | _ => []

def after : Frame → List Value
  | leftOperand _ right => right.constants
  | joinLeft _ right condition => right.constants ++ condition.constants
  | joinRight _ _ condition => condition.constants
  | item _ es => Expr.itemConstants es
  | columns q => q.clauseConstants Clause.all
  | clause q c => q.clauseConstants c.later
  | _ => []

/-- The text in front of the child, where the constants of the node begin at place `n`. -/
def textBefore (spell : Spelling) : Frame → Position → Nat → String
  | computed _, _, _ => ""
  | leftOperand .., _, _ => "("
  | rightOperand left op, _, n =>
    "(" ++ left.operandText (Expr.textAt spell left .reference n) ++ (" " ++ op ++ " ")
  | joinLeft .., _, _ => ""
  | joinRight kind left _, _, n =>
    Renderer.sourceText left (Expr.textAt spell left .reference n) ++ (" " ++ kind.keyword ++ " ")
  | joinCondition kind left right, _, n =>
    Renderer.sourceText left (Expr.textAt spell left .reference n) ++ (" " ++ kind.keyword ++ " ") ++
      Renderer.sourceText right (Expr.textAt spell right .reference (n + left.constants.length)) ++
      " ON "
  | item es _, p, n => Text.leading (Expr.itemTexts spell es p.ofItems n)
  | columns _, _, _ => "SELECT "
  | clause q c, _, n =>
    "SELECT " ++ Renderer.columnsText (Expr.textAt spell q.columns .selectList n) ++
      q.clausesText spell c.earlier (n + q.columns.constants.length) ++ (" " ++ c.keyword ++ " ")

/-- The text behind the child, where the constants behind it begin at place `n`. -/
def textAfter (spell : Spelling) : Frame → Position → Nat → String
  | computed label, p, _ => Fragment.aliased "" (p.shownAlias label)
  | leftOperand op right, _, n =>
    " " ++ op ++ " " ++ right.operandText (Expr.textAt spell right .reference n) ++ ")"
  | rightOperand .., _, _ => ")"
  | joinLeft kind right condition, _, n =>
    " " ++ kind.keyword ++ " " ++ Renderer.sourceText right (Expr.textAt spell right .reference n) ++
      " ON " ++
      condition.operandText (Expr.textAt spell condition .reference (n + right.constants.length))
  | joinRight _ _ condition, _, n =>
    " ON " ++ condition.operandText (Expr.textAt spell condition .reference n)
  | joinCondition .., _, _ => ""
  | item _ es, p, n => Text.trailing (Expr.itemTexts spell es p.ofItems n)
  | columns q, _, n => q.clausesText spell Clause.all n
  | clause q c, _, n => q.clausesText spell c.later n

def callerTexts (F : Frame) : List String := (F.fill .empty).callerTexts

theorem constants_fill (F : Frame) (e : Expr) :
    (F.fill e).constants = F.before ++ e.constants ++ F.after := by
  cases F with
  | item es es' => simp [fill, before, after, Expr.constants, Expr.itemConstants_eq_flatMap]
  | columns q => simp [fill, before, after, Select.constants_toExpr, Select.clauseConstants, Select.clause]
  | clause q c =>
    have he := q.clauseConstants_set e c.not_mem_earlier
    have hl := q.clauseConstants_set e c.not_mem_later
    simp [fill, before, after, Select.constants_toExpr, c.all_eq, he, hl]
  | _ => simp [fill, before, after, Expr.constants]

theorem textAt_fill (spell : Spelling) (F : Frame) {e : Expr} (p : Position) (n : Nat)
    (h : Expr.textAt spell e (F.place p) (n + F.before.length) ≠ "") :
    Expr.textAt spell (F.fill e) p n =
      F.textBefore spell p n ++
        F.wrap e (Expr.textAt spell e (F.place p) (n + F.before.length)) ++
        F.textAfter spell p (n + F.before.length + e.constants.length) := by
  cases F with
  | computed label =>
    simp [fill, textBefore, wrap, textAfter, place, before, Expr.textAt, ← Fragment.aliased_eq_append]
  | leftOperand op right =>
    simp [fill, textBefore, wrap, textAfter, place, before, Expr.textAt, Expr.infixText,
      String.append_assoc]
  | rightOperand left op =>
    simp [fill, textBefore, wrap, textAfter, place, before, Expr.textAt, Expr.infixText,
      String.append_assoc]
  | joinLeft kind right condition =>
    simp [fill, textBefore, wrap, textAfter, place, before, Expr.textAt, String.append_assoc]
  | joinRight kind left condition =>
    simp [fill, textBefore, wrap, textAfter, place, before, Expr.textAt, String.append_assoc]
  | joinCondition kind left right =>
    simp [fill, textBefore, wrap, textAfter, place, before, Expr.textAt, String.append_assoc,
      Nat.add_assoc]
  | item es es' =>
    rw [fill, Expr.textAt, Expr.itemsTextAt_eq_intercalate, Expr.itemTexts_append, Expr.itemTexts,
      Text.intercalate_append_cons]
    rfl
  | columns q =>
    have hc : ∀ c ∈ Clause.all, { q with columns := e }.clause c = q.clause c := by
      intro c _
      cases c <;> rfl
    have hs : Renderer.columnsText (Expr.textAt spell e .selectList n) =
        Expr.textAt spell e .selectList n := if_neg h
    rw [fill, Select.textAt_toExpr, hs, Select.clausesText_congr spell _ hc]
    rfl
  | clause q c =>
    have he := fun m => q.clausesText_set spell e c.not_mem_earlier m
    have hl := fun m => q.clausesText_set spell e c.not_mem_later m
    have hb := q.clauseConstants_set e c.not_mem_earlier
    simp only [place, before, List.length_append, ← Nat.add_assoc] at h ⊢
    rw [fill, Select.textAt_toExpr, c.all_eq, Select.clausesText_append, Select.clausesText, he, hl, hb,
      Select.columns_set, Select.clause_set, if_pos rfl, c.clauseTextOf_operandText h]
    simp [textBefore, wrap, textAfter, String.append_assoc]

/-- The children of a node are what stands in a frame of it. -/
theorem exists_fill_iff {e f : Expr} : (∃ F : Frame, F.fill f = e) ↔ f ∈ e.children := by
  constructor
  · rintro ⟨F, rfl⟩
    cases F with
    | clause q c => cases c <;> simp [fill, Select.toExpr, Select.set, Expr.children]
    | _ => simp [fill, Select.toExpr, Expr.children]
  · intro h
    cases e with
    | empty | raw | column | constant | keyFilter => simp [Expr.children] at h
    | computed inner label =>
      obtain rfl := List.mem_singleton.mp h
      exact ⟨computed label, rfl⟩
    | binary left op right =>
      simp only [Expr.children, List.mem_cons, List.not_mem_nil, or_false] at h
      rcases h with rfl | rfl
      · exact ⟨leftOperand op right, rfl⟩
      · exact ⟨rightOperand left op, rfl⟩
    | join kind left right condition =>
      simp only [Expr.children, List.mem_cons, List.not_mem_nil, or_false] at h
      rcases h with rfl | rfl | rfl
      · exact ⟨joinLeft kind right condition, rfl⟩
      · exact ⟨joinRight kind left condition, rfl⟩
      · exact ⟨joinCondition kind left right, rfl⟩
    | list items =>
      obtain ⟨es, es', rfl⟩ := List.append_of_mem (show f ∈ items from h)
      exact ⟨item es es', rfl⟩
    | select list source condition grouping having ordering =>
      simp only [Expr.children, List.mem_cons, List.not_mem_nil, or_false] at h
      let q : Select := ⟨list, source, condition, grouping, having, ordering⟩
      rcases h with rfl | rfl | rfl | rfl | rfl | rfl
      · exact ⟨columns q, rfl⟩
      · exact ⟨clause q .source, rfl⟩
      · exact ⟨clause q .condition, rfl⟩
      · exact ⟨clause q .grouping, rfl⟩
      · exact ⟨clause q .having, rfl⟩
      · exact ⟨clause q .ordering, rfl⟩

theorem mem_callerTexts_fill (F : Frame) (e : Expr) (s : String) :
    s ∈ (F.fill e).callerTexts ↔ s ∈ F.callerTexts ∨ s ∈ e.callerTexts := by
  have hempty : s ∉ Expr.empty.callerTexts := by simp [Expr.callerTexts, Expr.parts, Expr.ownTexts]
  unfold callerTexts
  rw [Expr.mem_callerTexts_iff, @Expr.mem_callerTexts_iff (F.fill .empty)]
  cases F with
  | clause q c =>
    cases c <;> simp [fill, Select.toExpr, Select.set, Expr.children, Expr.ownTexts, hempty] <;> tauto
  | item es es' =>
    simp only [fill, Expr.children, Expr.ownTexts, List.mem_append, List.mem_cons, or_and_right,
      exists_or, exists_eq_left, List.not_mem_nil, false_or, hempty]
    rw [or_assoc, or_comm (a := s ∈ e.callerTexts)]
  | _ =>
    simp [fill, Select.toExpr, Expr.children, Expr.ownTexts, hempty]
    try tauto

end Frame

/-- An expression in its frames, the innermost one first. -/
def surround (frames : List Frame) (e : Expr) : Expr := frames.foldl (fun e F => F.fill e) e

/-- The parts of an expression are what stands in some frames of it. -/
theorem exists_surround_iff {e f : Expr} : (∃ frames, surround frames f = e) ↔ f ∈ e.parts := by
  constructor
  · rintro ⟨frames, rfl⟩
    induction frames generalizing f with
    | nil => exact f.mem_parts_self
    | cons F frames ih =>
      have hf : f ∈ (F.fill f).parts :=
        Expr.mem_parts_iff.mpr (.inr ⟨f, Frame.exists_fill_iff.mp ⟨F, rfl⟩, f.mem_parts_self⟩)
      exact Expr.parts_subset_of_mem_parts ih hf
  · intro h
    induction e using Expr.children_induction with
    | h e ih =>
      rcases Expr.mem_parts_iff.mp h with rfl | ⟨g, hg, hf⟩
      · exact ⟨[], rfl⟩
      · obtain ⟨frames, rfl⟩ := ih g hg hf
        obtain ⟨F, rfl⟩ := Frame.exists_fill_iff.mpr hg
        exact ⟨frames ++ [F], by simp [surround]⟩

theorem mem_callerTexts_surround (frames : List Frame) (e : Expr) (s : String) :
    s ∈ (surround frames e).callerTexts ↔
      (∃ F ∈ frames, s ∈ F.callerTexts) ∨ s ∈ e.callerTexts := by
  induction frames generalizing e with
  | nil => simp [surround]
  | cons F frames ih =>
    have hi := ih (F.fill e)
    rw [F.mem_callerTexts_fill, ← or_assoc, or_comm (b := s ∈ F.callerTexts)] at hi
    simpa [surround] using hi

end SqlExpr
