import SqlExpr.Proofs.ListOperands
import SqlExpr.Proofs.Placeholders

/-! # Rendering from any state

What rendering writes and binds is a function of the expression, the dialect, the mode and the number of
values in the sink: the text so far, the values in the sink and the count of those bound before are kept
and do not matter. So renderings can be put one after the other with one sink, as the items of a list are,
and their placeholders are numbered on without a gap.
-/
namespace SqlExpr

/-- Modes of one kind, with sinks of one length. -/
def Mode.Agrees : Mode → Mode → Prop
  | literal, literal => True
  | bind sink, bind sink' => sink.length = sink'.length
  | _, _ => False

namespace Mode.Agrees

variable {m m' : Mode}

theorem spelling_eq (h : m.Agrees m') (d : Dialect) : m.spelling d = m'.spelling d := by
  cases m <;> cases m' <;> first | rfl | exact h.elim

theorem startsAt (h : m.Agrees m') : m.StartsAt m'.sink.length := by
  cases m with
  | literal => trivial
  | bind sink =>
    cases m' with
    | literal => exact h.elim
    | bind sink' => exact h

end Mode.Agrees

namespace Expr
open Renderer

theorem renderTo_start (d : Dialect) (m : Mode) (e : Expr) (p : Position) :
    renderTo e p (.start d m) =
      (Renderer.start d m).extend (textAt (m.spelling d) e p m.sink.length) e.constants :=
  renderTo_eq_extend e p (r := .start d m) m.startsAt_sink

/-- Rendering appends what it writes from the start with a mode that agrees, and binds the same values. -/
theorem renderTo_of_agrees {r : Renderer} {m : Mode} (h : r.mode.Agrees m) (e : Expr) (p : Position) :
    renderTo e p r = r.extend (renderTo e p (.start r.dialect m)).sql e.constants := by
  have hs : (renderTo e p (.start r.dialect m)).sql =
      textAt (r.mode.spelling r.dialect) e p m.sink.length := by
    rw [renderTo_start, h.spelling_eq]
    simp [extend, Renderer.start]
  rw [hs]
  exact renderTo_eq_extend e p h.startsAt

theorem fragment_of_agrees {r : Renderer} {m : Mode} (h : r.mode.Agrees m) (e : Expr) (p : Position) :
    r.fragment (renderTo e p) =
      ((renderTo e p (.start r.dialect m)).sql, r.extend "" e.constants) := by
  have hr := renderTo_of_agrees (r := { r with sql := "" }) h e p
  simp [fragment, hr, extend]

def modeBehind (d : Dialect) (m : Mode) (es : List Expr) : Mode :=
  es.foldl (fun m e => (e.render d m).mode) m

theorem modeBehind_eq_extend (d : Dialect) (m : Mode) (es : List Expr) :
    modeBehind d m es = m.extend (itemConstants es) := by
  unfold modeBehind
  induction es generalizing m with
  | nil => simp [itemConstants]
  | cons e es ih => rw [List.foldl_cons, ih, mode_render, Mode.extend_extend, itemConstants]

/-- The placeholders of each of several expressions, the first of them at place `n` of the sink. -/
def placeholdersEach (d : Dialect) : Nat → List Expr → List (List (List Char))
  | _, [] => []
  | n, e :: es =>
    d.placeholders n e.constants.length :: placeholdersEach d (n + e.constants.length) es

theorem flatten_placeholdersEach (d : Dialect) (n : Nat) (es : List Expr) :
    (placeholdersEach d n es).flatten = d.placeholders n (itemConstants es).length := by
  induction es generalizing n with
  | nil => rfl
  | cons e es ih =>
    have hr := List.range'_append_1 (s := n) (m := e.constants.length) (n := (itemConstants es).length)
    rw [placeholdersEach, List.flatten_cons, ih, itemConstants, List.length_append,
      Dialect.placeholders, Dialect.placeholders, Dialect.placeholders, ← List.map_append, hr]

/-- Each of the texts is the skeleton of its expression with its own placeholders. -/
theorem toList_renderEach_bind (d : Dialect) (sink : List Value) (es : List Expr) :
    (renderEach d (.bind sink) es).map String.toList =
      List.zipWith (fun e ts => (e.skeleton .reference).fill ts) es
        (placeholdersEach d sink.length es) := by
  induction es generalizing sink with
  | nil => rfl
  | cons e es ih =>
    have hm : (e.render d (.bind sink)).mode = .bind (sink ++ e.constants) := mode_render d _ e
    rw [renderEach, hm, List.map_cons, ih, placeholdersEach, List.zipWith_cons_cons,
      List.length_append]
    exact congrArg (· :: _) (sql_render_bind d sink e .reference)

theorem placeholdersIn_sql_render {e : Expr}
    (h : ∀ s ∈ e.callerTexts, ∀ c ∈ s.toList, c ≠ '?' ∧ c ≠ '$') (d : Dialect) (sink : List Value) :
    Text.placeholdersIn (e.render d (.bind sink)).sql.toList =
      d.placeholders sink.length e.constants.length := by
  have hk := skeleton_of_composes Skeleton.composes_spaced e .reference h
  have hl : (d.placeholders sink.length e.constants.length).length = (e.skeleton .reference).holes := by
    simp [Dialect.placeholders, holes_skeleton]
  have hs := sql_render_bind d sink e .reference
  rw [render, hs]
  exact Skeleton.placeholdersIn_fill hk (fun _ => d.isMark_of_mem_placeholders) hl

theorem placeholdersIn_renderEach {es : List Expr}
    (h : ∀ e ∈ es, ∀ s ∈ e.callerTexts, ∀ c ∈ s.toList, c ≠ '?' ∧ c ≠ '$') (d : Dialect)
    (sink : List Value) :
    (renderEach d (.bind sink) es).flatMap (fun s => Text.placeholdersIn s.toList) =
      (placeholdersEach d sink.length es).flatten := by
  induction es generalizing sink with
  | nil => rfl
  | cons e es ih =>
    have hm : (e.render d (.bind sink)).mode = .bind (sink ++ e.constants) := mode_render d _ e
    have hi := ih (fun f hf => h f (List.mem_cons_of_mem e hf)) (sink ++ e.constants)
    rw [renderEach, hm, List.flatMap_cons, hi, placeholdersIn_sql_render (h e List.mem_cons_self),
      placeholdersEach, List.flatten_cons, List.length_append]

/-- Rendering from any state appends the text that rendering from the start writes with a sink of the same
length, binds the constants of the expression and counts them; in literal mode it only appends. A fragment
is that text with the same effect on the sink and none on the text so far. So the text of a list is the
texts of its items, rendered one after the other with one sink, and the placeholders of expressions that are
rendered so are numbered on from the values that were in the sink. -/
theorem renderTo_refines_function (d : Dialect) :
    (∀ (e : Expr) (p : Position) (sink fresh : List Value) (sql : String) (bound : Nat),
      sink.length = fresh.length →
        let f := renderTo e p (.start d (.bind fresh))
        let r : Renderer := ⟨d, .bind sink, sql, bound⟩
        (f.mode = .bind (fresh ++ e.constants) ∧ f.bound = e.constants.length) ∧
          renderTo e p r =
            ⟨d, .bind (sink ++ e.constants), sql ++ f.sql, bound + e.constants.length⟩ ∧
          r.fragment (renderTo e p) =
            (f.sql, ⟨d, .bind (sink ++ e.constants), sql, bound + e.constants.length⟩)) ∧
      (∀ (e : Expr) (p : Position) (sql : String) (bound : Nat),
        let f := renderTo e p (.start d .literal)
        let r : Renderer := ⟨d, .literal, sql, bound⟩
        (f.mode = .literal ∧ f.bound = 0) ∧
          renderTo e p r = ⟨d, .literal, sql ++ f.sql, bound⟩ ∧
          r.fragment (renderTo e p) = (f.sql, r)) ∧
      (∀ (m : Mode) (es : List Expr),
        ((list es).render d m).sql = ", ".intercalate (renderEach d m es) ∧
          ((list es).render d m).mode = modeBehind d m es) ∧
      ∀ (sink : List Value) (es : List Expr),
        let marks := placeholdersEach d sink.length es
        let count := (itemConstants es).length
        (renderEach d (.bind sink) es).map String.toList =
            List.zipWith (fun e ts => (e.skeleton .reference).fill ts) es marks ∧
          marks.flatten =
            (match d with
            | .postgres => (List.range' (sink.length + 1) count).map fun k => '$' :: Text.digits k
            | _ => List.replicate count ['?']) ∧
          ((∀ e ∈ es, ∀ s ∈ e.callerTexts, ∀ c ∈ s.toList, c ≠ '?' ∧ c ≠ '$') →
            (renderEach d (.bind sink) es).flatMap (fun s => Text.placeholdersIn s.toList) =
              marks.flatten) := by
  refine ⟨?_, ?_, ?_, ?_⟩
  · intro e p sink fresh sql bound hl f r
    have h : r.mode.Agrees (.bind fresh) := hl
    have hf : f = _ := renderTo_start d (.bind fresh) e p
    refine ⟨⟨congrArg Renderer.mode hf, ?_⟩, renderTo_of_agrees h e p, ?_⟩
    · simpa [extend, Renderer.start, Mode.boundCount] using congrArg Renderer.bound hf
    · simpa [extend, Mode.extend, Mode.boundCount, r] using fragment_of_agrees h e p
  · intro e p sql bound f r
    have h : r.mode.Agrees .literal := trivial
    have hf : f = _ := renderTo_start d .literal e p
    refine ⟨⟨congrArg Renderer.mode hf, congrArg Renderer.bound hf⟩, renderTo_of_agrees h e p, ?_⟩
    simpa [extend, Mode.extend, Mode.boundCount, r] using fragment_of_agrees h e p
  · intro m es
    refine ⟨sql_render_list d m es, ?_⟩
    rw [mode_render, modeBehind_eq_extend, constants]
  · intro sink es marks count
    refine ⟨toList_renderEach_bind d sink es, ?_, fun h => placeholdersIn_renderEach h d sink⟩
    have hm : marks.flatten = d.placeholders sink.length count := flatten_placeholdersEach d _ es
    rw [hm]
    cases d with
    | postgres => exact Dialect.placeholders_postgres _ _
    | ansi => exact Dialect.placeholders_of_ne (by decide) _ _
    | mysql => exact Dialect.placeholders_of_ne (by decide) _ _

/-- From a state in use, a condition is written as from a fresh sink of one value, and two conditions
rendered after that one go on with the next number. -/
theorem renderTo_refines_function_in_used_state :
    let e := filter .eq "a" (.int 7)
    let es := [filter .lt "b" (.string "$1"), (filter .ne "c" .null).or e]
    let r : Renderer := ⟨.postgres, .bind [.boolean true], "WHERE ", 4⟩
    ([Value.boolean true].length = [Value.null].length ∧
        ∀ e ∈ es, ∀ s ∈ e.callerTexts, ∀ c ∈ s.toList, c ≠ '?' ∧ c ≠ '$') ∧
      renderTo e .reference r =
        ⟨.postgres, .bind [.boolean true, .int 7], "WHERE (a = $2)", 5⟩ ∧
      (r.fragment (renderTo e .reference)).1 = "(a = $2)" ∧
      (renderEach .postgres (.bind [.boolean true, .int 7]) es).flatMap
          (fun s => Text.placeholdersIn s.toList) = ["$3".toList, "$4".toList, "$5".toList] := by
  intro e es r
  have hes : ∀ e ∈ es, ∀ s ∈ e.callerTexts, ∀ c ∈ s.toList, c ≠ '?' ∧ c ≠ '$' := by
    have ha : es.all (·.callerTexts.all (·.toList.all fun c => c != '?' && c != '$')) = true := by
      decide
    simpa using ha
  obtain ⟨hbind, _, _, hmarks⟩ := renderTo_refines_function .postgres
  obtain ⟨_, hr, hf⟩ := hbind e .reference [.boolean true] [.null] "WHERE " 4 rfl
  obtain ⟨_, hm, hp⟩ := hmarks [.boolean true, .int 7] es
  exact ⟨⟨rfl, hes⟩, hr.trans (by decide +kernel), (congrArg Prod.fst hf).trans (by decide +kernel),
    (hp hes).trans (hm.trans (by decide +kernel))⟩

end Expr

end SqlExpr
