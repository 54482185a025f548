import SqlExpr.Dialect
import SqlExpr.Expr.Basic
import SqlExpr.Fragment

/-! # Rendering

A renderer gathers the text of an expression. In literal mode each constant is written as a literal
of the dialect; in bind mode it is added to a sink of parameters and its place in the sink becomes a
placeholder, so that a sink in use keeps one numbering. Parts of the text whose form depends on what
they turn out to be are rendered as fragments, beside the text so far, while their constants go to the
same sink.
-/
namespace SqlExpr

inductive Mode where
  | literal
  | bind (sink : List Value)
deriving DecidableEq

structure Renderer where
  dialect : Dialect
  mode : Mode
  sql : String
  /-- The number of values bound so far. -/
  bound : Nat
deriving DecidableEq

/-- Where an expression stands: as the select list of a query, as one of the items of that list, or
anywhere else. -/
inductive Position where
  | reference
  | item
  | selectList
deriving DecidableEq

def Position.ofItems : Position → Position
  | selectList => item
  | _ => reference

def Position.shownAlias (label : Option Word) : Position → String
  | reference => ""
  | _ => Word.textD label

/-- The sink of a mode, empty in literal mode. -/
def Mode.sink : Mode → List Value
  | literal => []
  | bind sink => sink

namespace Renderer

def start (dialect : Dialect) (mode : Mode) : Renderer := ⟨dialect, mode, "", 0⟩

def push (r : Renderer) (s : String) : Renderer := { r with sql := r.sql ++ s }

def pushConstant (r : Renderer) (v : Value) : Renderer :=
  match r.mode with
  | .literal => r.push (r.dialect.literal v)
  | .bind sink =>
    { r with mode := .bind (sink ++ [v]), bound := r.bound + 1 }.push
      (r.dialect.placeholder sink.length)

/-- The text that a step writes, kept apart from the text so far. -/
def fragment (r : Renderer) (step : Renderer → Renderer) : String × Renderer :=
  let r' := step { r with sql := "" }
  (r'.sql, { r' with sql := r.sql })

def pushFragment (r : Renderer) (change : String → String) (step : Renderer → Renderer) : Renderer :=
  let (s, r) := r.fragment step
  r.push (change s)

/-- An operand stands alone or gets parentheses. A constant never gets any, so that a literal and its
placeholder take the same place. -/
def pushOperand (r : Renderer) (e : Expr) (step : Renderer → Renderer) : Renderer :=
  if e.isConstant then step r else r.pushFragment Fragment.operand step

/-- The text of a source: a query gets parentheses, all else is left as it is. -/
def sourceText (e : Expr) (s : String) : String :=
  if e.isSelect && !Fragment.isGroup s.toList then Fragment.parenthesized s else s

def pushSource (r : Renderer) (e : Expr) (step : Renderer → Renderer) : Renderer :=
  r.pushFragment (sourceText e) step

/-- The columns of a query; where there is no text, all of them. -/
def columnsText (s : String) : String := if s = "" then "*" else s

/-- A clause behind its keyword; one without text is left out. -/
def clauseText (keyword : String) (s : String) : String :=
  if s = "" then "" else " " ++ keyword ++ " " ++ s

def pushClause (r : Renderer) (keyword : String) (e : Expr) (step : Renderer → Renderer) : Renderer :=
  if e.isEmpty then r else r.pushFragment (clauseText keyword) step

def pushInfix (r : Renderer) (op : String) (left right : Renderer → Renderer) : Renderer :=
  (right ((left (r.push "(")).push (" " ++ op ++ " "))).push ")"

def pushPart (table : String) (part : String × Value) (r : Renderer) : Renderer :=
  r.pushInfix "=" (·.push (Fragment.operand (Fragment.qualified table part.1)))
    (·.pushConstant part.2)

def pushConjunction (table : String) (step : Renderer → Renderer) (part : String × Value)
    (r : Renderer) : Renderer :=
  r.pushInfix "AND" (·.pushFragment Fragment.operand step)
    (·.pushFragment Fragment.operand (pushPart table part))

/-- The conditions of all parts of a key, joined from the left. -/
def pushKey (r : Renderer) (k : Key) : Renderer :=
  match k.parts with
  | [] => r
  | part :: parts => parts.foldl (pushConjunction k.table) (pushPart k.table part) r

end Renderer

end SqlExpr
