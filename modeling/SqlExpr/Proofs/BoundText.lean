import SqlExpr.Proofs.Composition
import SqlExpr.Proofs.Marks

/-! # Bound texts

A bound text is the skeleton of its expression with one placeholder for each constant, in order; the
first one comes to the place behind the values that were in the sink. So a text is empty only when
nothing was bound for it.
-/
namespace SqlExpr
open Fragment

theorem Dialect.isMark_placeholder (d : Dialect) (index : Nat) :
    IsMark (d.placeholder index).toList := by
  cases d with
  | postgres =>
    exact .inr ⟨Text.digits (index + 1), by simp [placeholder],
      fun c hc => Text.isDigit_of_mem_digits hc⟩
  | ansi => exact .inl (by simp [placeholder])
  | mysql => exact .inl (by simp [placeholder])

theorem Dialect.standsAlone_placeholder (d : Dialect) (index : Nat) :
    standsAlone (d.placeholder index).toList = true := by
  have hn := (d.isMark_placeholder index).isName_append []
  rw [List.append_nil] at hn
  exact standsAlone_of_isName hn

/-- The placeholders of `count` values, of which the first comes to place `n` of the sink. -/
def Dialect.placeholders (d : Dialect) (n count : Nat) : List (List Char) :=
  (List.range' n count).map fun index => (d.placeholder index).toList

theorem Dialect.placeholders_eq_all (d : Dialect) (sink : List Value) (n : Nat) (vs : List Value) :
    ((Mode.bind sink).spelling d).all n vs = d.placeholders n vs.length := by
  induction vs generalizing n with
  | nil => rfl
  | cons v vs ih =>
    have hn := ih (n + 1)
    simpa [Spelling.all, Dialect.placeholders, List.range'_succ, Mode.spelling] using hn

theorem Dialect.placeholders_postgres (n count : Nat) :
    placeholders .postgres n count =
      (List.range' (n + 1) count).map fun k => '$' :: Text.digits k := by
  induction count generalizing n with
  | zero => rfl
  | succ count ih =>
    have hn := ih (n + 1)
    simpa [placeholders, List.range'_succ, placeholder] using hn

theorem Dialect.placeholders_of_ne {d : Dialect} (h : d ≠ .postgres) (n count : Nat) :
    d.placeholders n count = List.replicate count ['?'] := by
  have hd : ∀ index, (d.placeholder index).toList = ['?'] := by
    intro index
    cases d <;> simp_all [placeholder]
  simp [placeholders, hd, List.map_const']

theorem Dialect.isMark_of_mem_placeholders {d : Dialect} {n count : Nat} {t : List Char}
    (h : t ∈ d.placeholders n count) : IsMark t := by
  obtain ⟨index, _, rfl⟩ := List.mem_map.mp h
  exact d.isMark_placeholder index

theorem Skeleton.alike_fill {ts : List (List Char)} {k : Skeleton} (ht : ∀ t ∈ ts, IsMark t)
    (h : ts.length = k.holes) : Alike (k.fill ts) k.shown := by
  induction k generalizing ts with
  | nil => exact .nil
  | cons c k ih =>
    cases c with
    | some c => exact .char c (ih ht (by simpa [holes] using h))
    | none =>
      cases ts with
      | nil => simp [holes] at h
      | cons t ts =>
        have hk := ih (fun u hu => ht u (List.mem_cons_of_mem _ hu)) (by simpa [holes] using h)
        exact .mark (ht t List.mem_cons_self) IsMark.question hk

namespace Expr

theorem render_bind (d : Dialect) (sink : List Value) (e : Expr) (p : Position) :
    renderTo e p (.start d (.bind sink)) =
      ⟨d, .bind (sink ++ e.constants), textAt ((Mode.bind sink).spelling d) e p sink.length,
        e.constants.length⟩ := by
  have h := renderTo_eq_extend e p (r := .start d (.bind sink)) (n := sink.length) rfl
  simpa [Renderer.start, Renderer.extend, Mode.extend, Mode.boundCount] using h

theorem sql_boundSql (d : Dialect) (e : Expr) :
    (e.boundSql d).1 = textAt ((Mode.bind []).spelling d) e .reference 0 :=
  congrArg Renderer.sql (render_bind d [] e .reference)

theorem params_boundSql (d : Dialect) (e : Expr) : (e.boundSql d).2 = e.constants := by
  have h := render_bind d [] e .reference
  simpa [boundSql, render, Mode.sink] using congrArg (fun r => r.mode.sink) h

theorem spelling_ne_empty (d : Dialect) (sink : List Value) (index : Nat) (v : Value) :
    (Mode.bind sink).spelling d index v ≠ "" := by
  intro he
  exact (d.isMark_placeholder index).ne_nil (String.toList_eq_nil_iff.mpr he)

theorem fits_bound (d : Dialect) (sink : List Value) (e : Expr) (p : Position) (n : Nat) :
    Fits ((Mode.bind sink).spelling d) n (textAt ((Mode.bind sink).spelling d) e p n) (e.skeleton p)
      e.constants := by
  refine fits_textAt (spelling_ne_empty d sink) hereditary_true (fun f _ _ hf m => ?_) e p n trivial
  have hm : ∀ t ∈ d.placeholders m f.constants.length, IsMark t := fun _ ht =>
    d.isMark_of_mem_placeholders ht
  rw [d.placeholders_eq_all]
  exact (Skeleton.alike_fill hm (by simp [Dialect.placeholders, hf])).standsAlone_eq

theorem holes_skeleton (e : Expr) (p : Position) : (e.skeleton p).holes = e.constants.length :=
  (fits_bound .ansi [] e p 0).holes

theorem sql_render_bind (d : Dialect) (sink : List Value) (e : Expr) (p : Position) :
    (renderTo e p (.start d (.bind sink))).sql.toList =
      (e.skeleton p).fill (d.placeholders sink.length e.constants.length) := by
  rw [render_bind, (fits_bound d sink e p sink.length).text, d.placeholders_eq_all]

theorem constants_of_skeleton {e : Expr} {p : Position} (h : e.skeleton p = []) :
    e.constants = [] := by
  have hl := e.holes_skeleton p
  rw [h] at hl
  exact List.length_eq_zero_iff.mp hl.symm

theorem boundSql_postgres (e : Expr) :
    (e.boundSql .postgres).1.toList = (e.skeleton .reference).fill
      ((List.range' 1 e.constants.length).map fun k => '$' :: Text.digits k) := by
  rw [← Dialect.placeholders_postgres 0]
  exact sql_render_bind .postgres [] e .reference

theorem boundSql_of_ne {d : Dialect} (h : d ≠ .postgres) (e : Expr) :
    (e.boundSql d).1.toList =
      (e.skeleton .reference).fill (List.replicate e.constants.length ['?']) := by
  rw [← Dialect.placeholders_of_ne h 0]
  exact sql_render_bind d [] e .reference

end Expr

end SqlExpr
