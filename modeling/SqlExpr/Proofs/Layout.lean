import SqlExpr.Expr.Select
import SqlExpr.Render.Text

/-! # The layout of lists and queries

A list is the texts of its items with commas between them. A query is its select list and then, clause
after clause in their fixed order, what each clause writes. Where a list or a query is taken apart at one
item or one clause, the text is what is written before, the text of that item or clause, and what is
written behind.
-/
namespace SqlExpr

namespace Expr

def itemTexts (spell : Spelling) : List Expr → Position → Nat → List String
  | [], _, _ => []
  | e :: es, p, n => textAt spell e p n :: itemTexts spell es p (n + e.constants.length)

variable (spell : Spelling) (p : Position) (n : Nat)

theorem itemsTextAt_eq_intercalate (es : List Expr) :
    itemsTextAt spell es p n = ", ".intercalate (itemTexts spell es p n) := by
  induction es generalizing n with
  | nil => rfl
  | cons e es ih =>
    cases es with
    | nil => simp [itemsTextAt, itemTexts]
    | cons f es => simp [itemsTextAt, itemTexts, ih, String.append_assoc]

theorem itemConstants_eq_flatMap (es : List Expr) : itemConstants es = es.flatMap constants := by
  induction es with
  | nil => rfl
  | cons e es ih => rw [itemConstants, ih, List.flatMap_cons]

theorem itemTexts_append (es fs : List Expr) :
    itemTexts spell (es ++ fs) p n =
      itemTexts spell es p n ++ itemTexts spell fs p (n + (itemConstants es).length) := by
  induction es generalizing n with
  | nil => rfl
  | cons e es ih => simp [itemTexts, itemConstants, ih, Nat.add_assoc]

end Expr

namespace Text

/-- The items before one, each with the comma behind it. -/
def leading (ss : List String) : String := if ss = [] then "" else ", ".intercalate ss ++ ", "

/-- The items behind one, each with the comma before it. -/
def trailing (ss : List String) : String := if ss = [] then "" else ", " ++ ", ".intercalate ss

theorem intercalate_cons (s : String) (ss : List String) :
    ", ".intercalate (s :: ss) = s ++ trailing ss := by
  unfold trailing
  by_cases h : ss = []
  · simp [h]
  · rw [String.intercalate_cons_of_ne_nil h, if_neg h, String.append_assoc]

theorem intercalate_append_cons (ss : List String) (s : String) (ts : List String) :
    ", ".intercalate (ss ++ s :: ts) = leading ss ++ s ++ trailing ts := by
  unfold leading
  by_cases h : ss = []
  · simp [h, intercalate_cons]
  · rw [String.intercalate_append_of_ne_nil h (List.cons_ne_nil s ts), intercalate_cons, if_neg h,
      ← String.append_assoc]

end Text

namespace Clause

def earlier (c : Clause) : List Clause := all.takeWhile (· != c)

def later (c : Clause) : List Clause := (all.dropWhile (· != c)).tail

theorem all_eq (c : Clause) : all = c.earlier ++ c :: c.later := by cases c <;> rfl

theorem not_mem_earlier (c : Clause) : c ∉ c.earlier := by cases c <;> decide

theorem not_mem_later (c : Clause) : c ∉ c.later := by cases c <;> decide

/-- The text of what a clause is set to; a query as the source gets parentheses. -/
def operandText (c : Clause) (e : Expr) (s : String) : String :=
  if c = source then Renderer.sourceText e s else s

theorem clauseTextOf_operandText (c : Clause) {spell : Spelling} {e : Expr} {n : Nat}
    (h : Expr.textAt spell e .reference n ≠ "") :
    Expr.clauseTextOf c.keyword e (c.operandText e (Expr.textAt spell e .reference n)) =
      " " ++ c.keyword ++ " " ++ c.operandText e (Expr.textAt spell e .reference n) := by
  have he : e.isEmpty = false := by
    cases e with
    | empty => exact absurd (by rw [Expr.textAt]) h
    | _ => rfl
  have hs : c.operandText e (Expr.textAt spell e .reference n) ≠ "" := by
    unfold operandText Renderer.sourceText Fragment.parenthesized
    split
    · split
      · simp
      · exact h
    · exact h
  simp [Expr.clauseTextOf, Renderer.clauseText, he, hs]

end Clause

namespace Select

/-- What clauses write one after the other, each behind its keyword or nothing at all. -/
def clausesText (spell : Spelling) (q : Select) : List Clause → Nat → String
  | [], _ => ""
  | c :: cs, n =>
    Expr.clauseTextOf c.keyword (q.clause c)
        (c.operandText (q.clause c) (Expr.textAt spell (q.clause c) .reference n)) ++
      clausesText spell q cs (n + (q.clause c).constants.length)

def clauseConstants (q : Select) (cs : List Clause) : List Value :=
  cs.flatMap fun c => (q.clause c).constants

variable (spell : Spelling) (q : Select)

theorem textAt_toExpr (p : Position) (n : Nat) :
    Expr.textAt spell q.toExpr p n =
      "SELECT " ++ Renderer.columnsText (Expr.textAt spell q.columns .selectList n) ++
        q.clausesText spell Clause.all (n + q.columns.constants.length) := by
  simp [toExpr, Expr.textAt, clausesText, Clause.all, Clause.operandText, Clause.keyword, clause,
    String.append_assoc]

theorem constants_toExpr :
    q.toExpr.constants = q.columns.constants ++ q.clauseConstants Clause.all := by
  simp [toExpr, Expr.constants, clauseConstants, Clause.all, clause]

@[simp] theorem clauseConstants_append (cs cs' : List Clause) :
    q.clauseConstants (cs ++ cs') = q.clauseConstants cs ++ q.clauseConstants cs' :=
  List.flatMap_append

@[simp] theorem clauseConstants_cons (c : Clause) (cs : List Clause) :
    q.clauseConstants (c :: cs) = (q.clause c).constants ++ q.clauseConstants cs :=
  List.flatMap_cons

theorem clausesText_append (cs cs' : List Clause) (n : Nat) :
    q.clausesText spell (cs ++ cs') n =
      q.clausesText spell cs n ++ q.clausesText spell cs' (n + (q.clauseConstants cs).length) := by
  induction cs generalizing n with
  | nil => simp [clausesText, clauseConstants]
  | cons c cs ih => simp [clausesText, ih, String.append_assoc, Nat.add_assoc]

section Set

variable {c : Clause} {cs : List Clause} (e : Expr)

theorem clausesText_congr {q' : Select} (h : ∀ c ∈ cs, q.clause c = q'.clause c) (n : Nat) :
    q.clausesText spell cs n = q'.clausesText spell cs n := by
  induction cs generalizing n with
  | nil => rfl
  | cons c cs ih =>
    have hc := h c List.mem_cons_self
    have hs := ih fun d hd => h d (List.mem_cons_of_mem _ hd)
    rw [clausesText, clausesText, hc, hs]

theorem clausesText_set (h : c ∉ cs) (n : Nat) :
    (q.set c e).clausesText spell cs n = q.clausesText spell cs n := by
  refine clausesText_congr spell _ (fun c' hc' => ?_) n
  rw [clause_set, if_neg]
  rintro rfl
  exact h hc'

theorem clauseConstants_set (h : c ∉ cs) : (q.set c e).clauseConstants cs = q.clauseConstants cs := by
  refine congrArg List.flatten (List.map_congr_left fun c' hc' => ?_)
  rw [clause_set, if_neg]
  rintro rfl
  exact h hc'

end Set

end Select

theorem Expr.exists_toExpr_of_isSelect {e : Expr} (h : e.isSelect = true) :
    ∃ q : Select, q.toExpr = e := by
  cases e with
  | select columns source condition grouping having ordering =>
    exact ⟨⟨columns, source, condition, grouping, having, ordering⟩, rfl⟩
  | _ => simp [isSelect] at h

end SqlExpr
