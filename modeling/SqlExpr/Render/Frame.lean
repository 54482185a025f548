import SqlExpr.Render.Basic
import SqlExpr.Render.Text

/-! # What rendering leaves alone

Rendering an expression appends its text to the text so far and its constants to the sink, and does
nothing else. A fragment has the same effect on the sink and none on the text so far.
-/
namespace SqlExpr

/-- The mode after further values: in literal mode nothing is bound. -/
def Mode.extend (vs : List Value) : Mode → Mode
  | literal => literal
  | bind sink => bind (sink ++ vs)

def Mode.boundCount (vs : List Value) : Mode → Nat
  | literal => 0
  | bind _ => vs.length

/-- The next value bound has the place `n`. -/
def Mode.StartsAt (n : Nat) : Mode → Prop
  | literal => True
  | bind sink => sink.length = n

namespace Mode

@[simp] theorem extend_nil (m : Mode) : m.extend [] = m := by
  cases m <;> simp [extend]

@[simp] theorem extend_extend (m : Mode) (vs ws : List Value) :
    (m.extend vs).extend ws = m.extend (vs ++ ws) := by
  cases m <;> simp [extend]

@[simp] theorem boundCount_nil (m : Mode) : m.boundCount [] = 0 := by
  cases m <;> rfl

@[simp] theorem boundCount_extend (m : Mode) (vs ws : List Value) :
    (m.extend vs).boundCount ws = m.boundCount ws := by
  cases m <;> rfl

theorem boundCount_append (m : Mode) (vs ws : List Value) :
    m.boundCount (vs ++ ws) = m.boundCount vs + m.boundCount ws := by
  cases m <;> simp [boundCount]

@[simp] theorem spelling_extend (d : Dialect) (m : Mode) (vs : List Value) :
    (m.extend vs).spelling d = m.spelling d := by
  cases m <;> rfl

theorem StartsAt.extend {n : Nat} {m : Mode} (h : m.StartsAt n) (vs : List Value) :
    (m.extend vs).StartsAt (n + vs.length) := by
  cases m with
  | literal => trivial
  | bind sink => simp_all [StartsAt, Mode.extend]

theorem startsAt_sink (m : Mode) : m.StartsAt m.sink.length := by
  cases m <;> simp [StartsAt, sink]

end Mode

namespace Renderer

def extend (r : Renderer) (s : String) (vs : List Value) : Renderer :=
  { r with sql := r.sql ++ s, mode := r.mode.extend vs, bound := r.bound + r.mode.boundCount vs }

@[simp] theorem dialect_extend (r : Renderer) (s : String) (vs : List Value) :
    (r.extend s vs).dialect = r.dialect := rfl

@[simp] theorem mode_extend (r : Renderer) (s : String) (vs : List Value) :
    (r.extend s vs).mode = r.mode.extend vs := rfl

@[simp] theorem extend_extend (r : Renderer) (s t : String) (vs ws : List Value) :
    (r.extend s vs).extend t ws = r.extend (s ++ t) (vs ++ ws) := by
  simp [extend, Mode.boundCount_append, String.append_assoc, Nat.add_assoc]

@[simp] theorem extend_empty (r : Renderer) : r.extend "" [] = r := by
  simp [extend]

theorem push_eq_extend (r : Renderer) (s : String) : r.push s = r.extend s [] := by
  simp [push, extend]

theorem pushConstant_eq_extend {n : Nat} {r : Renderer} (h : r.mode.StartsAt n) (v : Value) :
    r.pushConstant v = r.extend (r.mode.spelling r.dialect n v) [v] := by
  obtain ⟨d, m, sql, bound⟩ := r
  cases m with
  | literal => simp [pushConstant, push, extend, Mode.extend, Mode.boundCount, Mode.spelling]
  | bind sink =>
    have h : sink.length = n := h
    simp [pushConstant, push, extend, Mode.extend, Mode.boundCount, Mode.spelling, h]

/-- A step appends the text `s` and binds the values `vs` wherever it starts from place `n` on, as
long as constants are spelled in one way. -/
def Writes (d : Dialect) (spell : Spelling) (n : Nat) (step : Renderer → Renderer) (s : String)
    (vs : List Value) : Prop :=
  ∀ r : Renderer, r.dialect = d → r.mode.spelling d = spell → r.mode.StartsAt n →
    step r = r.extend s vs

variable {d : Dialect} {spell : Spelling} {n : Nat} {s t : String} {vs ws : List Value}
variable {step step' : Renderer → Renderer}

namespace Writes

theorem push (s : String) : Writes d spell n (·.push s) s [] :=
  fun r _ _ _ => r.push_eq_extend s

theorem pushConstant (v : Value) : Writes d spell n (·.pushConstant v) (spell n v) [v] := by
  intro r hd hs hn
  subst hd
  rw [← hs]
  exact pushConstant_eq_extend hn v

theorem andThen (h : Writes d spell n step s vs)
    (h' : Writes d spell (n + vs.length) step' t ws) :
    Writes d spell n (fun r => step' (step r)) (s ++ t) (vs ++ ws) := by
  intro r hd hs hn
  have hm : (r.extend s vs).mode.spelling d = spell := by simpa using hs
  show step' (step r) = _
  rw [h r hd hs hn, h' (r.extend s vs) hd hm (hn.extend vs), extend_extend]

theorem pushFragment (h : Writes d spell n step s vs) (change : String → String) :
    Writes d spell n (·.pushFragment change step) (change s) vs := by
  intro r hd hs hn
  have := h { r with sql := "" } hd hs hn
  simp [Renderer.pushFragment, fragment, this, extend, Renderer.push]

theorem pushOperand (e : Expr) (h : Writes d spell n step s vs) :
    Writes d spell n (·.pushOperand e step) (e.operandText s) vs := by
  unfold Renderer.pushOperand Expr.operandText
  cases e.isConstant with
  | true => exact h
  | false => exact h.pushFragment Fragment.operand

theorem pushSource (e : Expr) (h : Writes d spell n step s vs) :
    Writes d spell n (·.pushSource e step) (sourceText e s) vs :=
  h.pushFragment (sourceText e)

theorem pushInfix (op : String) (h : Writes d spell n step s vs)
    (h' : Writes d spell (n + vs.length) step' t ws) :
    Writes d spell n (·.pushInfix op step step') (Expr.infixText op s t) (vs ++ ws) := by
  have hl := (@push d spell n "(").andThen h
  have hop := hl.andThen (push (" " ++ op ++ " "))
  have hr := hop.andThen (by simpa using h')
  simpa [Renderer.pushInfix, Expr.infixText] using hr.andThen (push ")")

theorem pushPart (table : String) (part : String × Value) :
    Writes d spell n (pushPart table part) (Expr.partText spell table n part) [part.2] :=
  (@push d spell n (Fragment.operand (Fragment.qualified table part.1))).pushInfix "="
    (pushConstant part.2)

theorem pushConjunctions (table : String) (parts : List (String × Value))
    (h : Writes d spell n step s vs) :
    Writes d spell n (parts.foldl (pushConjunction table) step)
      (Expr.conjunctionText spell table s (n + vs.length) parts) (vs ++ parts.map (·.2)) := by
  induction parts generalizing step s vs with
  | nil => simpa [Expr.conjunctionText] using h
  | cons part parts ih =>
    have hp := (@pushPart d spell (n + vs.length) table part).pushFragment Fragment.operand
    have hc : Writes d spell n (pushConjunction table step part) _ _ :=
      (h.pushFragment Fragment.operand).pushInfix "AND" hp
    simpa [Expr.conjunctionText, Nat.add_assoc] using ih hc

theorem pushKey (k : Key) : Writes d spell n (·.pushKey k) (Expr.keyText spell n k) k.values := by
  obtain ⟨table, parts⟩ := k
  cases parts with
  | nil =>
    intro r _ _ _
    simp [Renderer.pushKey, Expr.keyText, Key.values]
  | cons part parts =>
    have h := (@pushPart d spell n table part).pushConjunctions table parts
    simpa [Renderer.pushKey, Expr.keyText, Key.values] using h

theorem pushClause (keyword : String) (e : Expr) (h : Writes d spell n step s vs)
    (he : e.isEmpty = true → vs = []) :
    Writes d spell n (·.pushClause keyword e step) (Expr.clauseTextOf keyword e s) vs := by
  unfold Renderer.pushClause Expr.clauseTextOf
  cases hc : e.isEmpty with
  | true =>
    intro r _ _ _
    simp [he hc]
  | false => exact h.pushFragment (clauseText keyword)

end Writes

end Renderer

namespace Expr
open Renderer

variable {d : Dialect} {spell : Spelling}

theorem constants_of_isEmpty {e : Expr} (h : e.isEmpty = true) : e.constants = [] := by
  cases e <;> simp_all [isEmpty, constants]

mutual
theorem writes_renderTo : ∀ (e : Expr) (p : Position) (n : Nat),
    Writes d spell n (renderTo e p) (textAt spell e p n) e.constants
  | empty, p, n => by
    intro r _ _ _
    simp [renderTo, textAt, constants]
  | raw sql, p, n => by
    have h : renderTo (raw sql) p = (·.push sql.text) := by funext r; rw [renderTo]
    rw [h, textAt, constants]
    exact Writes.push _
  | column table name label, p, n => by
    have h : renderTo (column table name label) p = (·.push (Fragment.aliased
      (Fragment.qualified (Word.textD table) name) (p.shownAlias label))) := by
      funext r; rw [renderTo]
    rw [h, textAt, constants]
    exact Writes.push _
  | computed inner label, p, n => by
    have h : renderTo (computed inner label) p =
        (·.pushFragment (Fragment.aliased · (p.shownAlias label))
          (·.pushOperand inner (renderTo inner .reference))) := by
      funext r; rw [renderTo]
    rw [h, textAt, constants]
    exact ((writes_renderTo inner .reference n).pushOperand inner).pushFragment _
  | constant v, p, n => by
    have h : renderTo (constant v) p = (·.pushConstant v) := by funext r; rw [renderTo]
    rw [h, textAt, constants]
    exact Writes.pushConstant v
  | binary left op right, p, n => by
    have h : renderTo (binary left op right) p =
        (·.pushInfix op (·.pushOperand left (renderTo left .reference))
          (·.pushOperand right (renderTo right .reference))) := by
      funext r; rw [renderTo]
    rw [h, textAt, constants]
    exact ((writes_renderTo left .reference n).pushOperand left).pushInfix op
      ((writes_renderTo right .reference _).pushOperand right)
  | join kind left right condition, p, n => by
    have hl := (writes_renderTo left .reference n).pushSource left
    have hk := hl.andThen (Writes.push (" " ++ kind.keyword ++ " "))
    have hr := hk.andThen ((writes_renderTo right .reference _).pushSource right)
    have ho := hr.andThen (Writes.push " ON ")
    have hc := ho.andThen ((writes_renderTo condition .reference _).pushOperand condition)
    intro r hd hs hn
    have := hc r hd hs hn
    simpa [renderTo, textAt, constants, Nat.add_assoc] using this
  | list items, p, n => by
    have h : renderTo (list items) p = renderItemsTo items p.ofItems := by
      funext r; rw [renderTo]
    rw [h, textAt, constants]
    exact writes_renderItemsTo items p.ofItems n
  | select columns source condition grouping having ordering, p, n => by
    have hs := @Writes.push d spell n "SELECT "
    have hc := hs.andThen ((writes_renderTo columns .selectList _).pushFragment columnsText)
    have hf := hc.andThen (((writes_renderTo source .reference _).pushSource source).pushClause
      "FROM" source constants_of_isEmpty)
    have hw := hf.andThen ((writes_renderTo condition .reference _).pushClause
      "WHERE" condition constants_of_isEmpty)
    have hg := hw.andThen ((writes_renderTo grouping .reference _).pushClause
      "GROUP BY" grouping constants_of_isEmpty)
    have hh := hg.andThen ((writes_renderTo having .reference _).pushClause
      "HAVING" having constants_of_isEmpty)
    have ho := hh.andThen ((writes_renderTo ordering .reference _).pushClause
      "ORDER BY" ordering constants_of_isEmpty)
    intro r hd hm hn
    have := ho r hd hm hn
    simpa [renderTo, textAt, constants, Nat.add_assoc] using this
  | keyFilter f, p, n => by
    have h : renderTo (keyFilter f) p = (·.pushKey f.key) := by funext r; rw [renderTo]
    rw [h, textAt, constants]
    exact Writes.pushKey f.key

theorem writes_renderItemsTo : ∀ (es : List Expr) (p : Position) (n : Nat),
    Writes d spell n (renderItemsTo es p) (itemsTextAt spell es p n) (itemConstants es)
  | [], p, n => by
    intro r _ _ _
    simp [renderItemsTo, itemsTextAt, itemConstants]
  | [e], p, n => by
    have h : renderItemsTo [e] p = renderTo e p := by funext r; rw [renderItemsTo]
    simpa [h, itemsTextAt, itemConstants] using writes_renderTo e p n
  | e :: e' :: es, p, n => by
    have h := ((writes_renderTo e p n).andThen (Writes.push ", ")).andThen
      (writes_renderItemsTo (e' :: es) p _)
    intro r hd hs hn
    have := h r hd hs hn
    simpa [renderItemsTo, itemsTextAt, itemConstants, Nat.add_assoc] using this
end

/-- Rendering appends the text and the constants of the expression and keeps the rest. -/
theorem renderTo_eq_extend {n : Nat} (e : Expr) (p : Position) {r : Renderer}
    (h : r.mode.StartsAt n) :
    renderTo e p r = r.extend (textAt (r.mode.spelling r.dialect) e p n) e.constants :=
  writes_renderTo e p n r rfl rfl h

theorem sql_render_of_startsAt {mode : Mode} {n : Nat} (h : mode.StartsAt n) (d : Dialect) (e : Expr) :
    (e.render d mode).sql = textAt (mode.spelling d) e .reference n := by
  have hr := renderTo_eq_extend e .reference (r := .start d mode) h
  simpa [render, Renderer.start, Renderer.extend] using congrArg Renderer.sql hr

theorem sql_render (d : Dialect) (mode : Mode) (e : Expr) :
    (e.render d mode).sql = textAt (mode.spelling d) e .reference mode.sink.length :=
  sql_render_of_startsAt mode.startsAt_sink d e

theorem mode_render (d : Dialect) (mode : Mode) (e : Expr) :
    (e.render d mode).mode = mode.extend e.constants := by
  have hr := renderTo_eq_extend e .reference (r := .start d mode) mode.startsAt_sink
  simpa [render, Renderer.start] using congrArg Renderer.mode hr

end Expr

end SqlExpr
