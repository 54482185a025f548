import SqlExpr.Failure
import SqlExpr.Json.Pairs
import SqlExpr.Json.Printer
import SqlExpr.Render.Basic

/-! # Render settings

The dialect of a rendering and whether constants are inlined. The JSON form is an object of the two
fields, each of which may be missing; unknown fields are ignored. A list of at most two items is read
as well.
-/
namespace SqlExpr

structure Settings where
  dialect : Dialect := .ansi
  inlinesLiterals : Bool := false
deriving DecidableEq

namespace Settings
open Json

def isDefault (s : Settings) : Bool := s == {}

def mode (s : Settings) : Mode := if s.inlinesLiterals then .literal else .bind []

/-- The rendering of an expression as set; no value is bound when constants are inlined. -/
def render (s : Settings) (e : Expr) : Renderer := e.render s.dialect s.mode

def dialects : List (String × Dialect) :=
  [("ansi", .ansi), ("postgres", .postgres), ("mysql", .mysql)]

def dialectName (d : Dialect) : String :=
  ((dialects.find? fun p => p.2 = d).map Prod.fst).getD ""

def jsonText (s : Settings) : String :=
  objectText [("dialect", stringText (dialectName s.dialect)),
    ("inline_literals", if s.inlinesLiterals then "true" else "false")]

def dialectOfName (name : String) : Reader Dialect :=
  match dialects.lookup name with
  | some d => return d
  | none => Reader.refuse (.unknownVariant name (dialects.map Prod.fst))

def readDialect : Reader Dialect :=
  variant (dialects.map Prod.fst) dialectOfName fun name => do
    null "unit"
    dialectOfName name

def ofList : Reader Settings := do
  if ← nextItem true then
    let dialect ← readDialect
    if ← nextItem false then return ⟨dialect, ← boolean⟩
    else return { dialect }
  else return {}

def ofFields : Reader Settings := do
  let f ← fields (fieldOf ("dialect", readDialect) ("inline_literals", boolean)) {}
  return ⟨f.first.getD .ansi, f.second.getD false⟩

def reader : Reader Settings := record "struct RenderSettings" ofList ofFields

def ofJson (s : String) : Except Failure Settings :=
  match reader.run s with
  | .ok settings => .ok settings
  | .error e => .error (.settings e.message)

end Settings

end SqlExpr
