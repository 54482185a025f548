import SqlExpr.Json.ValueForm
import SqlExpr.Key

/-! # The form of keys

A key is a record of its table and its parts, each part a pair of a column and a value.
-/
namespace SqlExpr.Key
open Json

variable (F : Format) (S : Scalars)

/-- A part stands in a list in the record. -/
def partForm : Form (String × Value) :=
  F.pair "a pair" F.string (Value.form F S (greatestNesting - 3))

def form : Form Key :=
  (F.record "a key" ("table", F.string) ("parts", F.list "a list of pairs" (partForm F S))).imap
    (fun k => (k.table, k.parts)) fun p => ⟨p.1, p.2⟩

def json : Form Key := form compact scalars

def jsonText (k : Key) : String := json.text k

def ofJson (s : String) : Except Json.Error Key := json.ofText s

end SqlExpr.Key
