import SqlExpr.Proofs.Reading

/-! # Reading joins back

A join writes no parentheses around its sides. Its text is that of a table with further joins behind it,
each with its keyword, its right side and its condition. Behind a side there follows the keyword of a
further join or an `ON`, which ends the side and belongs to the join around it; so keywords and conditions
match like brackets, and the bound text of a join tree can be read in one way only.
-/
namespace SqlExpr

/-- Tables by their names, and joins of join trees on filters. -/
inductive JoinTree : Expr → Prop where
  | table {w : Word} (hw : IsIdentifier w.text) : JoinTree (.raw w)
  | join (kind : JoinKind) {left right condition : Expr} (hl : JoinTree left) (hr : JoinTree right)
      (hc : Prepared condition) : JoinTree (.join kind left right condition)

theorem JoinTree.ofText {s : String} (h : IsIdentifier s) : JoinTree (.ofText s) := by
  rw [Expr.ofText, Word.ofText?_of_ne h.1]
  exact .table h

/-- A join without its left side. -/
structure JoinStep where
  kind : JoinKind
  right : Expr
  condition : Expr

namespace JoinStep

def onto (left : Expr) (s : JoinStep) : Expr := .join s.kind left s.right s.condition

def constants (s : JoinStep) : List Value := s.right.constants ++ s.condition.constants

structure IsReadable (s : JoinStep) : Prop where
  right : JoinTree s.right
  condition : Prepared s.condition

end JoinStep

def Expr.joined (e : Expr) (steps : List JoinStep) : Expr := steps.foldl JoinStep.onto e

def Expr.onText (d : Dialect) (condition : Expr) (n : Nat) : List Char :=
  " ON ".toList ++ condition.groupedText d n

def Expr.joinText (d : Dialect) : Expr → Nat → List Char
  | raw sql, _ => sql.text.toList
  | join kind left right condition, n =>
    let m := n + left.constants.length
    joinText d left n ++ ' ' :: (kind.keyword.toList ++ ' ' ::
      (joinText d right m ++ onText d condition (m + right.constants.length)))
  | _, _ => []

def stepsText (d : Dialect) : List JoinStep → Nat → List Char
  | [], _ => []
  | s :: steps, n =>
    ' ' :: (s.kind.keyword.toList ++ ' ' :: (s.right.joinText d n ++
      (s.condition.onText d (n + s.right.constants.length) ++
        stepsText d steps (n + s.constants.length))))

/-- What may come behind a side of a join: the end, or the keyword of its condition. -/
def EndsSource (x : List Char) : Prop := x = [] ∨ " ON ".toList <+: x

theorem JoinKind.keyword_append_inj {kind kind' : JoinKind} {x y : List Char}
    (h : kind.keyword.toList ++ ' ' :: x = kind'.keyword.toList ++ ' ' :: y) : kind = kind' ∧ x = y := by
  cases kind <;> cases kind' <;> simp_all [keyword]

theorem not_endsSource_keyword (kind : JoinKind) (x : List Char) :
    ¬ EndsSource (' ' :: (kind.keyword.toList ++ x)) := by
  cases kind <;> simp [EndsSource, JoinKind.keyword]

theorem EndsSource.onText (d : Dialect) (condition : Expr) (n : Nat) (x : List Char) :
    EndsSource (condition.onText d n ++ x) := by
  right
  rw [Expr.onText, List.append_assoc]
  exact List.prefix_append _ _

theorem EndsSource.endsOperand {x : List Char} (hx : EndsSource x) : Prepared.EndsOperand x := by
  rcases hx with rfl | ⟨t, rfl⟩ <;> simp [Prepared.EndsOperand]

theorem endsOperand_stepsText (d : Dialect) (steps : List JoinStep) (n : Nat) {y : List Char}
    (hy : EndsSource y) : Prepared.EndsOperand (stepsText d steps n ++ y) := by
  cases steps with
  | nil => exact hy.endsOperand
  | cons s steps => simp [stepsText, Prepared.EndsOperand]

namespace Expr

variable {d : Dialect} {e : Expr}

theorem joined_concat (e : Expr) (steps : List JoinStep) (s : JoinStep) :
    e.joined (steps ++ [s]) = s.onto (e.joined steps) := by
  simp [joined]

theorem joinText_joined (d : Dialect) (e : Expr) (steps : List JoinStep) (n : Nat) :
    (e.joined steps).joinText d n =
      e.joinText d n ++ stepsText d steps (n + e.constants.length) := by
  induction steps generalizing e with
  | nil => simp [joined, stepsText]
  | cons s steps ih =>
    have hi := ih (s.onto e)
    have hc : (s.onto e).constants.length = e.constants.length + s.constants.length := by
      simp [JoinStep.onto, JoinStep.constants, constants]
    rw [hc, ← Nat.add_assoc] at hi
    simpa [joined, stepsText, JoinStep.onto, joinText] using hi

/-- Where the text of the tree begins that of another one, the other one is this tree with further joins,
which write the rest. -/
def BeginsAlike (d : Dialect) (e : Expr) : Prop :=
  ∀ {w : Word} {steps : List JoinStep} {n : Nat} {x y : List Char}, IsIdentifier w.text →
    (∀ s ∈ steps, s.IsReadable) → Prepared.EndsOperand x → EndsSource y →
    e.joinText d n ++ x = ((raw w).joined steps).joinText d n ++ y →
    ∃ before after, steps = before ++ after ∧ e.blank = ((raw w).joined before).blank ∧
      x = stepsText d after (n + e.constants.length) ++ y

end Expr

namespace JoinTree
open SqlExpr.Expr

variable {d : Dialect} {e e' : Expr}

/-- A join tree is its first table with joins behind it. -/
theorem exists_joined (he : JoinTree e) : ∃ w steps, IsIdentifier w.text ∧
    (∀ s ∈ steps, JoinStep.IsReadable s) ∧ e = (raw w).joined steps := by
  induction he with
  | @table w hw => exact ⟨w, [], hw, by simp, rfl⟩
  | @join kind left right condition _ hr hc ihl _ =>
    obtain ⟨w, steps, hw, hs, rfl⟩ := ihl
    refine ⟨w, steps ++ [⟨kind, right, condition⟩], hw, fun s hm => ?_, ?_⟩
    · rcases List.mem_append.mp hm with hm | hm
      · exact hs s hm
      · rw [List.mem_singleton.mp hm]
        exact ⟨hr, hc⟩
    · rw [joined_concat]
      rfl

theorem blank_eq_of_beginsAlike (h : BeginsAlike d e) (he' : JoinTree e') {n : Nat} {x y : List Char}
    (hx : EndsSource x) (hy : EndsSource y) (ht : e.joinText d n ++ x = e'.joinText d n ++ y) :
    e.blank = e'.blank ∧ x = y := by
  obtain ⟨w, steps, hw, hs, rfl⟩ := he'.exists_joined
  obtain ⟨before, after, rfl, hb, hrest⟩ := h hw hs hx.endsOperand hy ht
  cases after with
  | nil => exact ⟨by simpa using hb, hrest⟩
  | cons s after =>
    rw [hrest, stepsText, List.cons_append, List.append_assoc] at hx
    exact absurd hx (not_endsSource_keyword s.kind _)

/-- Keyword by keyword, the other tree has the joins of this one, and no other ones before them. -/
theorem beginsAlike (d : Dialect) (he : JoinTree e) : BeginsAlike d e := by
  induction he with
  | @table v hv =>
    intro w steps n x y hw _ hx hy h
    rw [joinText_joined, List.append_assoc] at h
    have hy' := endsOperand_stepsText d steps (n + (raw w).constants.length) hy
    obtain ⟨hn, hrest⟩ := append_inj_of_run (fun _ => hv.isColumnChar) (fun _ => hw.isColumnChar)
      hx.isColumnChar hy'.isColumnChar h
    obtain rfl : v = w := Word.toList_inj hn
    exact ⟨[], steps, rfl, rfl, hrest⟩
  | @join kind left right condition _ hr hc ihl ihr =>
    intro w steps n x y hw hs hx hy h
    rw [joinText, List.append_assoc] at h
    obtain ⟨before, after, rfl, hbl, hrest⟩ := ihl hw hs (by simp [Prepared.EndsOperand]) hy h
    -- The left side has read the joins `before`; the next one has to be this join.
    cases after with
    | nil =>
      rw [stepsText, List.nil_append] at hrest
      rw [← hrest, List.cons_append, List.append_assoc] at hy
      exact absurd hy (not_endsSource_keyword kind _)
    | cons s after =>
      obtain ⟨hsr, hsc⟩ := hs s (by simp)
      simp only [stepsText, List.cons_append, List.append_assoc, List.cons.injEq, true_and] at hrest
      obtain ⟨hk, hrest⟩ := JoinKind.keyword_append_inj hrest
      obtain ⟨hbr, hrest⟩ := blank_eq_of_beginsAlike ihr hsr (.onText d condition _ _)
        (.onText d s.condition _ _) hrest
      -- The right sides bind equally many values, so that the conditions go on at one place.
      rw [onText, onText, length_constants_eq_of_blank_eq hbr, List.append_assoc,
        List.append_assoc] at hrest
      obtain ⟨hbc, hx⟩ := hc.blank_eq_of_append_eq hsc hx (endsOperand_stepsText d after _ hy)
        (List.append_cancel_left hrest)
      refine ⟨before ++ [s], after, by simp, ?_, ?_⟩
      · rw [joined_concat, JoinStep.onto, blank, blank, hk, hbl, hbr, hbc]
      · rw [hx, constants, List.length_append, List.length_append,
          length_constants_eq_of_blank_eq hbr, length_constants_eq_of_blank_eq hbc]
        simp [JoinStep.constants, Nat.add_assoc]

theorem sourceText_eq_self (he : JoinTree e) (s : String) : Renderer.sourceText e s = s := by
  cases he <;> rfl

theorem toList_textAt (he : JoinTree e) (sink : List Value) (n : Nat) :
    (textAt ((Mode.bind sink).spelling d) e .reference n).toList = joinText d e n := by
  induction he generalizing n with
  | table hw => rw [textAt, joinText]
  | join kind hl hr hc ihl ihr =>
    have ht := fun m => hc.toList_textAt (d := d) sink m
    rw [textAt, hl.sourceText_eq_self, hr.sourceText_eq_self, hc.operandText_eq_self (ht _), joinText,
      ← ihl, ← ihr, onText, ← ht]
    simp

theorem blank_eq_of_boundSql_eq (he : JoinTree e) (he' : JoinTree e')
    (h : (e.boundSql d).1 = (e'.boundSql d).1) : e.blank = e'.blank := by
  have hj := congrArg String.toList h
  rw [sql_boundSql, sql_boundSql, he.toList_textAt, he'.toList_textAt] at hj
  exact (blank_eq_of_beginsAlike (he.beginsAlike d) he' (.inl rfl) (.inl rfl) (by rw [hj])).1

end JoinTree

namespace Expr

variable {d : Dialect} {e e' : Expr}

/-- Two join trees with one bound text and one list of parameters are the same tree, nested alike, with
the same kinds, tables and conditions; where the parameters are equal as values, so are the trees. -/
theorem boundSql_injective_on_joins (he : JoinTree e) (he' : JoinTree e')
    (ht : (e.boundSql d).1 = (e'.boundSql d).1) :
    ((e.boundSql d).2 = (e'.boundSql d).2 → e = e') ∧
      (List.Forall₂ (fun v v' => v.equal v' = true) (e.boundSql d).2 (e'.boundSql d).2 →
        e.equal e' = true) := by
  have hb := he.blank_eq_of_boundSql_eq he' ht
  rw [params_boundSql, params_boundSql]
  exact ⟨eq_of_blank_eq e e' hb, equal_of_blank_eq e e' hb⟩

/-- A join on the right side, with conditions that differ in the sign of a zero. -/
theorem boundSql_injective_on_joins_for_signed_zeros :
    let e := fun zero => join .left (ofText "a")
      (join .full (ofText "b") (ofText "c") (filter .lt "x" (.float (.zero zero))))
      ((qualified "a" "id").equals (qualified "b" "id"))
    ((e false).boundSql .postgres).1 = "a LEFT JOIN b FULL OUTER JOIN c ON (x < $1) ON (a.id = b.id)" ∧
      ((e true).boundSql .postgres).1 = ((e false).boundSql .postgres).1 ∧
      (∀ zero, JoinTree (e zero)) ∧ (e false).equal (e true) = true := by
  intro e
  have hn : ∀ s ∈ ["a", "b", "c", "id", "x"], IsIdentifier s := by
    simp only [IsIdentifier]
    decide +kernel
  have hi : ∀ s ∈ ["a", "b"], Prepared (qualified s "id") := fun s hs =>
    .qualified (hn s (by grind)) (hn "id" (by simp))
  have he : ∀ zero, JoinTree (e zero) := fun zero =>
    .join _ (.ofText (hn "a" (by simp)))
      (.join _ (.ofText (hn "b" (by simp))) (.ofText (hn "c" (by simp)))
        (.filter .lt (hn "x" (by simp)) _))
      (.equals (hi "a" (by simp)) (hi "b" (by simp)))
  have ht : ((e false).boundSql .postgres).1 = ((e true).boundSql .postgres).1 := by decide +kernel
  refine ⟨by decide +kernel, ht.symm, he, (boundSql_injective_on_joins (he false) (he true) ht).2 ?_⟩
  rw [params_boundSql, params_boundSql]
  exact .cons (by decide +kernel) .nil

end Expr

end SqlExpr
