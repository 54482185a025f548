import Mathlib.Data.List.Nodup
import SqlExpr.Proofs.Emptiness
import SqlExpr.Proofs.Layout

/-! # Queries in normal form

A query is built by setting its clauses one after the other. Setting a clause replaces what it was set to
before and leaves the other clauses alone, so that only the last call for each clause counts and their
order does not. A query is then written as its columns and, in their fixed order, the clauses that have a
text; which ones these are can be told from their shape.
-/
namespace SqlExpr.Select

section Building

def setAll (q : Select) (calls : List (Clause × Expr)) : Select :=
  calls.foldl (fun q call => q.set call.1 call.2) q

/-- The calls that no later call for the same clause replaces. -/
def lastCalls : List (Clause × Expr) → List (Clause × Expr)
  | [] => []
  | call :: calls =>
    if call.1 ∈ calls.map Prod.fst then lastCalls calls else call :: lastCalls calls

theorem set_set (q : Select) (c : Clause) (e e' : Expr) : (q.set c e).set c e' = q.set c e' := by
  cases c <;> rfl

theorem set_comm {c c' : Clause} (h : c ≠ c') (q : Select) (e e' : Expr) :
    (q.set c e).set c' e' = (q.set c' e').set c e := by
  cases c <;> cases c' <;> first | rfl | exact absurd rfl h

theorem columns_setAll (q : Select) (calls : List (Clause × Expr)) :
    (q.setAll calls).columns = q.columns := by
  induction calls generalizing q with
  | nil => rfl
  | cons call calls ih => exact (ih _).trans (columns_set q _ _)

variable {calls calls' : List (Clause × Expr)}

theorem clause_setAll_of_not_mem {c : Clause} (h : c ∉ calls.map Prod.fst) (q : Select) :
    (q.setAll calls).clause c = q.clause c := by
  induction calls generalizing q with
  | nil => rfl
  | cons call calls ih =>
    obtain ⟨hc, hm⟩ : c ≠ call.1 ∧ c ∉ calls.map Prod.fst := by simpa using h
    have hs : (q.set call.1 call.2).clause c = q.clause c := by
      rw [clause_set, if_neg (Ne.symm hc)]
    exact (ih hm _).trans hs

/-- What is set again later may as well not be set. -/
theorem setAll_set_of_mem {c : Clause} (h : c ∈ calls.map Prod.fst) (q : Select) (e : Expr) :
    (q.set c e).setAll calls = q.setAll calls := by
  induction calls generalizing q with
  | nil => simp at h
  | cons call calls ih =>
    obtain ⟨c', e'⟩ := call
    by_cases hc : c = c'
    · subst hc
      exact congrArg (setAll · calls) (q.set_set c e e')
    · have hm : c ∈ calls.map Prod.fst := by simpa [hc] using h
      exact (congrArg (setAll · calls) (set_comm hc q e e')).trans (ih hm (q.set c' e'))

theorem setAll_lastCalls (q : Select) (calls : List (Clause × Expr)) :
    q.setAll (lastCalls calls) = q.setAll calls := by
  induction calls generalizing q with
  | nil => rfl
  | cons call calls ih =>
    rw [lastCalls]
    split
    · rename_i hm
      exact (ih q).trans (setAll_set_of_mem hm q call.2).symm
    · exact ih (q.set call.1 call.2)

theorem lastCalls_sublist (calls : List (Clause × Expr)) : (lastCalls calls).Sublist calls := by
  induction calls with
  | nil => exact .slnil
  | cons call calls ih =>
    rw [lastCalls]
    split
    · exact ih.cons call
    · exact ih.cons_cons call

theorem mem_map_lastCalls {c : Clause} : c ∈ (lastCalls calls).map Prod.fst ↔ c ∈ calls.map Prod.fst := by
  induction calls with
  | nil => rfl
  | cons call calls ih =>
    rw [lastCalls]
    split
    · rename_i hm
      rw [ih, List.map_cons, List.mem_cons]
      exact ⟨.inr, fun h => h.elim (fun he => he ▸ hm) id⟩
    · rw [List.map_cons, List.map_cons, List.mem_cons, List.mem_cons, ih]

theorem clause_setAll_of_mem {c : Clause} {e : Expr} (h : (c, e) ∈ lastCalls calls) (q : Select) :
    (q.setAll calls).clause c = e := by
  induction calls generalizing q with
  | nil => simp [lastCalls] at h
  | cons call calls ih =>
    rw [lastCalls] at h
    split at h
    · exact ih h (q.set call.1 call.2)
    · rename_i hm
      rcases List.mem_cons.mp h with rfl | h
      · exact (clause_setAll_of_not_mem hm _).trans (by rw [clause_set, if_pos rfl])
      · exact ih h (q.set call.1 call.2)

/-- The last call for a clause is one for it, with the expression that the clause then holds. -/
theorem mem_lastCalls_iff {c : Clause} {e : Expr} (q : Select) :
    (c, e) ∈ lastCalls calls ↔ c ∈ calls.map Prod.fst ∧ (q.setAll calls).clause c = e := by
  constructor
  · intro h
    exact ⟨mem_map_lastCalls.mp (List.mem_map_of_mem h), clause_setAll_of_mem h q⟩
  · rintro ⟨hm, rfl⟩
    obtain ⟨⟨c, e⟩, h, rfl⟩ := List.mem_map.mp (mem_map_lastCalls.mpr hm)
    rwa [clause_setAll_of_mem h q]

theorem nodup_lastCalls (calls : List (Clause × Expr)) : ((lastCalls calls).map Prod.fst).Nodup := by
  induction calls with
  | nil => exact .nil
  | cons call calls ih =>
    rw [lastCalls]
    split
    · exact ih
    · rename_i hm
      exact List.nodup_cons.mpr ⟨fun h => hm (((lastCalls_sublist calls).map _).subset h), ih⟩

theorem setAll_eq_of_perm (h : calls'.Perm (lastCalls calls)) (q : Select) :
    q.setAll calls' = q.setAll calls := by
  rw [← setAll_lastCalls q calls]
  refine h.foldl_eq' (fun call hm call' hm' q => ?_) q
  by_cases hc : call.1 = call'.1
  · rw [List.inj_on_of_nodup_map (nodup_lastCalls calls) (h.mem_iff.mp hm) (h.mem_iff.mp hm') hc]
  · exact set_comm hc q call.2 call'.2

end Building

/-- What a clause writes of the text that it is set to: a query as the source is put in parentheses. -/
def shownText (c : Clause) (e : Expr) (s : String) : String :=
  if c = .source ∧ e.isSelect = true then Fragment.parenthesized s else s

/-- The texts of clauses that are rendered one after the other with one sink. -/
def clauseTexts (q : Select) (d : Dialect) : Mode → List Clause → List (Clause × String)
  | _, [] => []
  | mode, c :: cs =>
    let r := (q.clause c).render d mode
    (c, shownText c (q.clause c) r.sql) :: clauseTexts q d r.mode cs

/-- The clauses that have a text, by their shape. -/
def shownClauses (q : Select) : List Clause := Clause.all.filter fun c => !(q.clause c).isVoid

section Rendering

variable {d : Dialect} {mode : Mode} {n : Nat} (q : Select)

theorem operandText_eq_shownText (c : Clause) (spell : Spelling) (e : Expr) (n : Nat) :
    c.operandText e (Expr.textAt spell e .reference n) =
      shownText c e (Expr.textAt spell e .reference n) := by
  unfold Clause.operandText shownText
  rw [Expr.sourceText_textAt]
  by_cases hc : c = .source <;> simp [hc]

theorem shownText_eq_empty_iff {c : Clause} {e : Expr} :
    shownText c e (e.render d mode).sql = "" ↔ e.isVoid = true := by
  unfold shownText
  split
  · rename_i h
    obtain ⟨q, rfl⟩ := Expr.exists_toExpr_of_isSelect h.2
    simp [Fragment.parenthesized, toExpr, Expr.isVoid]
  · exact Expr.sql_render_eq_empty_iff

theorem map_shown_clauseTexts (cs : List Clause) :
    ((q.clauseTexts d mode cs).filter (·.2 ≠ "")).map Prod.fst =
      cs.filter fun c => !(q.clause c).isVoid := by
  induction cs generalizing mode with
  | nil => rfl
  | cons c cs ih =>
    have hc := @shownText_eq_empty_iff d mode c (q.clause c)
    cases h : (q.clause c).isVoid <;> simp_all [clauseTexts]

theorem clausesText_eq_join (h : mode.StartsAt n) (cs : List Clause) :
    q.clausesText (mode.spelling d) cs n = String.join
      (((q.clauseTexts d mode cs).filter (·.2 ≠ "")).map fun p => " " ++ p.1.keyword ++ " " ++ p.2) := by
  induction cs generalizing mode n with
  | nil => rfl
  | cons c cs ih =>
    have hs := Expr.sql_render_of_startsAt h d (q.clause c)
    have he := @shownText_eq_empty_iff d mode c (q.clause c)
    have hi := ih (h.extend (q.clause c).constants)
    rw [Mode.spelling_extend] at hi
    rw [clausesText, operandText_eq_shownText, ← hs, hi, clauseTexts, Expr.mode_render,
      Expr.clauseTextOf_eq _ fun hc => he.mpr (Expr.isVoid_of_isEmpty hc), Renderer.clauseText]
    split
    · rename_i ht
      simp [ht]
    · rename_i ht
      simp [ht]

theorem clauseConstants_shown (cs : List Clause) :
    q.clauseConstants (cs.filter fun c => !(q.clause c).isVoid) = q.clauseConstants cs := by
  induction cs with
  | nil => rfl
  | cons c cs ih =>
    cases h : (q.clause c).isVoid with
    | true => simp [h, ih, Expr.constants_of_isVoid h]
    | false => simp [h, ih]

end Rendering

/-- Each clause of a query holds the expression of the last call for it, or nothing without a call, so that
the query is the one that these calls build in any order. It is written as its columns, or a star, and
behind them in their fixed order the clauses that have a text; these are the same in every dialect and
mode, and the other clauses leave a renderer as it was. -/
theorem normal_form (columns : Expr) (calls : List (Clause × Expr)) :
    let q := (ofColumns columns).setAll calls
    (∀ calls', calls'.Perm (lastCalls calls) → (ofColumns columns).setAll calls' = q) ∧
      (∀ c e, (c, e) ∈ lastCalls calls ↔ c ∈ calls.map Prod.fst ∧ q.clause c = e) ∧
      (∀ c, c ∉ calls.map Prod.fst → q.clause c = .empty) ∧
      (∀ c, c ∉ q.shownClauses → ∀ r, Expr.renderTo (q.clause c) .reference r = r) ∧
      ∀ (d : Dialect) (mode : Mode),
        let list := Expr.renderTo columns .selectList (.start d mode)
        let shown := (q.clauseTexts d list.mode Clause.all).filter (·.2 ≠ "")
        shown.map Prod.fst = q.shownClauses ∧
          (q.toExpr.render d mode).sql = "SELECT " ++ (if list.sql = "" then "*" else list.sql) ++
            String.join (shown.map fun p => " " ++ p.1.keyword ++ " " ++ p.2) ∧
          (q.toExpr.render d mode).mode = list.mode.extend (q.clauseConstants q.shownClauses) := by
  intro q
  have hq : q.columns = columns := columns_setAll _ calls
  have hempty : ∀ c, c ∉ calls.map Prod.fst → q.clause c = .empty := fun c h =>
    (clause_setAll_of_not_mem h _).trans (clause_ofColumns columns c)
  refine ⟨fun calls' h => setAll_eq_of_perm h _, fun c e => mem_lastCalls_iff _, hempty, fun c hc r => ?_,
    fun d mode => ?_⟩
  · refine Expr.renderTo_of_isVoid ?_ r
    have hall : c ∈ Clause.all := by cases c <;> decide
    simpa [shownClauses, hall] using hc
  · intro list shown
    have hl : list = _ := Expr.renderTo_eq_extend columns .selectList (r := .start d mode)
      mode.startsAt_sink
    have hm : list.mode = mode.extend columns.constants := by rw [hl]; rfl
    have hs : list.sql = Expr.textAt (mode.spelling d) columns .selectList mode.sink.length := by
      simp [hl, Renderer.start, Renderer.extend]
    have hstart := mode.startsAt_sink.extend columns.constants
    have hc := q.clausesText_eq_join (d := d) hstart Clause.all
    rw [Mode.spelling_extend, ← hm] at hc
    refine ⟨q.map_shown_clauseTexts _, ?_, ?_⟩
    · rw [Expr.sql_render, textAt_toExpr, hq, hc, ← hs]
      rfl
    · rw [Expr.mode_render, constants_toExpr, hq, hm, Mode.extend_extend, shownClauses,
        clauseConstants_shown]

/-- A condition is replaced, an order is set and a grouping by nothing is written as nothing. -/
theorem normal_form_of_repeated_calls :
    let calls := [(Clause.condition, Expr.filter .eq "a" (.int 1)), (.source, (ofColumns .empty).toExpr),
      (.ordering, Expr.named "b"), (.condition, Expr.filter .lt "c" (.string "it's")), (.grouping, .list [])]
    let q := (ofColumns .empty).setAll calls
    calls.tail.reverse.Perm (lastCalls calls) ∧ (ofColumns .empty).setAll calls.tail.reverse = q ∧
      (.condition, Expr.filter .lt "c" (.string "it's")) ∈ lastCalls calls ∧
      q.clause .condition = Expr.filter .lt "c" (.string "it's") ∧
      Clause.having ∉ calls.map Prod.fst ∧ q.clause .having = .empty ∧
      q.shownClauses = [.source, .condition, .ordering] ∧
      (q.toExpr.render .postgres .literal).sql =
        "SELECT * FROM (SELECT *) WHERE (c < 'it''s') ORDER BY b" := by
  intro calls q
  have hp : calls.tail.reverse.Perm (lastCalls calls) := List.reverse_perm calls.tail
  have hc : (.condition, Expr.filter .lt "c" (.string "it's")) ∈ lastCalls calls :=
    .tail _ (.tail _ (.head _))
  have hh : Clause.having ∉ calls.map Prod.fst := by decide
  obtain ⟨hbuilt, hlast, hnone, _, hr⟩ := normal_form .empty calls
  exact ⟨hp, hbuilt _ hp, hc, ((hlast _ _).mp hc).2, hh, hnone _ hh, by decide +kernel,
    (hr .postgres .literal).2.1.trans (by decide +kernel)⟩

end SqlExpr.Select
