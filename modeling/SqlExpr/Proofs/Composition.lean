import Mathlib.Data.List.Induction
import SqlExpr.Proofs.Skeleton

/-! # What skeletons are put together from

Every skeleton comes from the texts of the caller, a few keywords and pairs of parentheses, and a hole
is never followed by a digit. A property of skeletons that is kept by putting them together in this
way therefore holds of the skeleton of every expression whose texts allow it.
-/
namespace SqlExpr

def isKeywordChar (c : Char) : Bool :=
  c.isAlpha || c == ' ' || c == ',' || c == '.' || c == '*' || c == '='

/-- A property `P` of skeletons that holds of all skeletons put together from texts with the property
`Q`, where no hole is followed by a digit. -/
structure Composes (Q : String → Prop) (P : Skeleton → Prop) : Prop where
  keyword : ∀ {s : String}, s.toList.all isKeywordChar = true → Q s
  append : ∀ {s t : String}, Q s → Q t → Q (s ++ t)
  text : ∀ {s : String}, Q s → P (.ofText s)
  hole : P [none]
  parenthesized : ∀ {k : Skeleton}, P k → P k.parenthesized
  before : ∀ {s : String} {k : Skeleton}, Q s → P k → P (.ofText s ++ k)
  after : ∀ {k k' : Skeleton}, P k → P k' → k'.StartsPlain → P (k ++ k')

namespace Composes

variable {Q : String → Prop} {P : Skeleton → Prop} {k k' : Skeleton}

theorem nil (h : Composes Q P) : P [] := h.text (s := "") (h.keyword (by simp))

theorem spaced (h : Composes Q P) {s : String} (hs : Q s) : Q (" " ++ s ++ " ") :=
  h.append (h.append (h.keyword (by decide)) hs) (h.keyword (by decide))

theorem qualified (h : Composes Q P) {table name : String} (ht : Q table) (hn : Q name) :
    Q (Fragment.qualified table name) := by
  unfold Fragment.qualified
  split
  · exact hn
  · exact h.append (h.append ht (h.keyword (by decide))) hn

theorem operand (h : Composes Q P) (hk : P k) : P k.operand := by
  rcases k.operand_eq_or with he | he <;> rw [he]
  · exact hk
  · exact h.parenthesized hk

theorem separated (h : Composes Q P) {s : String} (hs : Q (" " ++ s ++ " ")) (hk : P k)
    (hk' : P k') : P (k ++ (.ofText (" " ++ s ++ " ") ++ k')) := by
  have ht : (" " ++ s ++ " ").toList = ' ' :: (s ++ " ").toList := by simp
  exact h.after hk (h.before hs hk') (Skeleton.startsPlain_ofText_append ht (by decide) k')

theorem infixed (h : Composes Q P) {op : String} (ho : Q op) (hk : P k) (hk' : P k') :
    P (.infixed op k k') :=
  h.parenthesized (h.separated (h.spaced ho) hk hk')

theorem aliased (h : Composes Q P) {label : String} (hl : Q label) (hk : P k) :
    P (k.aliased label) := by
  unfold Skeleton.aliased
  split
  · exact hk
  · have ht : (" AS " ++ label).toList = ' ' :: ("AS " ++ label).toList := by simp
    have hs := Skeleton.startsPlain_ofText_append ht (by decide) []
    rw [List.append_nil] at hs
    exact h.after hk (h.text (h.append (h.keyword (by decide)) hl)) hs

theorem source (h : Composes Q P) (e : Expr) (hk : P k) : P (k.source e) := by
  unfold Skeleton.source
  split
  · exact h.parenthesized hk
  · exact hk

theorem columns (h : Composes Q P) (hk : P k) : P k.columns := by
  unfold Skeleton.columns
  split
  · exact h.text (h.keyword (by decide))
  · exact hk

/-- What may stand behind a hole: nothing, or a text that does not go on a number. -/
def Follows (P : Skeleton → Prop) (k : Skeleton) : Prop := P k ∧ (k = [] ∨ k.StartsPlain)

theorem append_follows (h : Composes Q P) (hk : P k) (hk' : Follows P k') : P (k ++ k') := by
  obtain ⟨hp, rfl | hs⟩ := hk'
  · rwa [List.append_nil]
  · exact h.after hk hp hs

theorem clause_follows (h : Composes Q P) (keyword : String) (hw : Q (" " ++ keyword ++ " "))
    (hk : P k) (hk' : Follows P k') : Follows P (k.clause keyword ++ k') := by
  unfold Skeleton.clause
  split
  · exact hk'
  · have ht : (" " ++ keyword ++ " ").toList = ' ' :: (keyword ++ " ").toList := by simp
    rw [List.append_assoc]
    exact ⟨h.before hw (h.append_follows hk hk'),
      .inr (Skeleton.startsPlain_ofText_append ht (by decide) _)⟩

theorem ofColumn (h : Composes Q P) {table column : String} (ht : Q table) (hc : Q column) :
    P (.ofColumn table column) :=
  h.infixed (h.keyword (by decide)) (h.operand (h.text (h.qualified ht hc))) h.hole

theorem ofKey (h : Composes Q P) {table : String} {columns : List String} (ht : Q table)
    (hc : ∀ c ∈ columns, Q c) : P (.ofKey table columns) := by
  induction columns using List.reverseRecOn with
  | nil => exact h.nil
  | append_singleton columns column ih =>
    have hl : P (.ofColumn table column) := h.ofColumn ht (hc column (by simp))
    by_cases hn : columns = []
    · subst hn
      exact hl
    · have hi := ih fun c hm => hc c (List.mem_append_left _ hm)
      rw [Skeleton.ofKey_concat hn]
      exact h.infixed (h.keyword (by decide)) (h.operand hi) (h.operand hl)

end Composes

namespace Expr

variable {Q : String → Prop} {P : Skeleton → Prop}

theorem spaced_keyword (h : Composes Q P) (kind : JoinKind) : Q (" " ++ kind.keyword ++ " ") := by
  cases kind <;> exact h.keyword (by decide)

theorem shownAlias_of (h : Composes Q P) {label : Option Word} (hl : Q (Word.textD label))
    (p : Position) : Q (p.shownAlias label) := by
  cases p
  · exact h.keyword (by simp [Position.shownAlias])
  · exact hl
  · exact hl

mutual
theorem skeleton_of_composes (h : Composes Q P) : ∀ (e : Expr) (p : Position),
    (∀ s ∈ e.callerTexts, Q s) → P (e.skeleton p)
  | empty, p, _ => by
    rw [skeleton]
    exact h.nil
  | raw sql, p, hq => by
    rw [skeleton]
    exact h.text (hq _ (ownTexts_subset_callerTexts _ (by simp [ownTexts])))
  | column table name label, p, hq => by
    have ho := fun s hs => hq s (ownTexts_subset_callerTexts _ hs)
    simp only [ownTexts, List.mem_cons, List.not_mem_nil, or_false, forall_eq_or_imp,
      forall_eq] at ho
    obtain ⟨ht, hn, hl⟩ := ho
    rw [skeleton]
    apply h.text
    unfold Fragment.aliased
    split
    · exact h.qualified ht hn
    · exact h.append (h.append (h.qualified ht hn) (h.keyword (by decide))) (shownAlias_of h hl p)
  | computed inner label, p, hq => by
    have hi := skeleton_of_composes h inner .reference (forall_callerTexts hq (by simp [children]))
    have hl := hq (Word.textD label) (ownTexts_subset_callerTexts _ (by simp [ownTexts]))
    rw [skeleton]
    exact h.aliased (shownAlias_of h hl p) (h.operand hi)
  | constant v, p, _ => by
    rw [skeleton]
    exact h.hole
  | binary left op right, p, hq => by
    have hl := skeleton_of_composes h left .reference (forall_callerTexts hq (by simp [children]))
    have hr := skeleton_of_composes h right .reference (forall_callerTexts hq (by simp [children]))
    have ho := hq op (ownTexts_subset_callerTexts _ (by simp [ownTexts]))
    rw [skeleton]
    exact h.infixed ho (h.operand hl) (h.operand hr)
  | join kind left right condition, p, hq => by
    have hl := skeleton_of_composes h left .reference (forall_callerTexts hq (by simp [children]))
    have hr := skeleton_of_composes h right .reference (forall_callerTexts hq (by simp [children]))
    have hc := skeleton_of_composes h condition .reference (forall_callerTexts hq (by simp [children]))
    have hon := h.separated (s := "ON") (h.keyword (by decide)) (h.source right hr) (h.operand hc)
    rw [skeleton]
    exact h.separated (spaced_keyword h kind) (h.source left hl) hon
  | list items, p, hq => by
    rw [skeleton]
    exact itemsSkeleton_of_composes h items p.ofItems fun e he =>
      forall_callerTexts hq (by simpa [children] using he)
  | select columns source condition grouping having ordering, p, hq => by
    have hc := skeleton_of_composes h columns .selectList (forall_callerTexts hq (by simp [children]))
    have hs := skeleton_of_composes h source .reference (forall_callerTexts hq (by simp [children]))
    have hw := skeleton_of_composes h condition .reference (forall_callerTexts hq (by simp [children]))
    have hg := skeleton_of_composes h grouping .reference (forall_callerTexts hq (by simp [children]))
    have hh := skeleton_of_composes h having .reference (forall_callerTexts hq (by simp [children]))
    have ho := skeleton_of_composes h ordering .reference (forall_callerTexts hq (by simp [children]))
    have h₁ := h.clause_follows "ORDER BY" (h.keyword (by decide)) ho ⟨h.nil, .inl rfl⟩
    have h₂ := h.clause_follows "HAVING" (h.keyword (by decide)) hh h₁
    have h₃ := h.clause_follows "GROUP BY" (h.keyword (by decide)) hg h₂
    have h₄ := h.clause_follows "WHERE" (h.keyword (by decide)) hw h₃
    have h₅ := h.clause_follows "FROM" (h.keyword (by decide)) (h.source source hs) h₄
    rw [List.append_nil] at h₅
    rw [skeleton]
    exact h.before (h.keyword (by decide)) (h.append_follows (h.columns hc) h₅)
  | keyFilter f, p, hq => by
    have ho := fun s hs => hq s (ownTexts_subset_callerTexts _ hs)
    simp only [ownTexts, List.mem_cons, forall_eq_or_imp] at ho
    rw [skeleton]
    exact h.ofKey ho.1 ho.2

theorem itemsSkeleton_of_composes (h : Composes Q P) : ∀ (es : List Expr) (p : Position),
    (∀ e ∈ es, ∀ s ∈ e.callerTexts, Q s) → P (itemsSkeleton es p)
  | [], p, _ => by
    rw [itemsSkeleton]
    exact h.nil
  | [e], p, hq => by
    rw [itemsSkeleton]
    exact skeleton_of_composes h e p (hq e (by simp))
  | e :: e' :: es, p, hq => by
    have he := skeleton_of_composes h e p (hq e (by simp))
    have hes := itemsSkeleton_of_composes h (e' :: es) p fun f hf => hq f (List.mem_cons_of_mem _ hf)
    rw [itemsSkeleton]
    have hc : (", " : String).toList = ',' :: [' '] := by decide
    exact h.after he (h.before (h.keyword (by decide)) hes)
      (Skeleton.startsPlain_ofText_append hc (by decide) _)
end

end Expr

end SqlExpr
