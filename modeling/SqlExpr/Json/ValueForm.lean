import SqlExpr.Calendar.Reader
import SqlExpr.Json.Format
import SqlExpr.Number.DecimalReader

/-! # The form of values

A value is a variant with the name of its kind, and null has no content. In JSON it is thus an object with
that name as the only key, and null the bare name. Decimals, dates and timestamps are strings, bytes are
lists of numbers. A float that is not finite is written as null, which is not read back.
-/
namespace SqlExpr

namespace Json

/-- The types of values that bring their own texts. -/
structure Scalars where
  decimal : Textual Decimal
  date : Textual Date
  timestamp : Textual Timestamp

def scalars : Scalars where
  decimal := ⟨Decimal.text, Decimal.ofText?⟩
  date := ⟨Date.text, Date.ofText?⟩
  timestamp := ⟨Timestamp.isoText, Timestamp.ofText?⟩

end Json

namespace Value
open Json

def kinds : List String :=
  ["Null", "Int", "Float", "Decimal", "String", "Boolean", "Date", "Timestamp", "Bytes"]

/-- The value of a kind given by name only; null alone has no content. -/
def ofKind (kind : String) : Reader Value :=
  if kind = "Null" then return null
  else Reader.refuse (.wrongType "unit variant" "newtype variant")

section

variable (F : Format) (S : Scalars)

def tagged (room : Nat) : Value → String × Option String
  | null => ("Null", none)
  | int n => ("Int", F.integer.text n)
  | float x => ("Float", F.float.text x)
  | decimal d => ("Decimal", (F.decimal room S.decimal).text d)
  | string s => ("String", F.string.text s)
  | boolean b => ("Boolean", F.boolean.text b)
  | date d => ("Date", (F.textual "a date" S.date).text d)
  | timestamp t => ("Timestamp", (F.textual "a timestamp" S.timestamp).text t)
  | bytes bs => ("Bytes", (F.list "a list of bytes" F.byte).text bs)

def contentOf (room : Nat) (kind : String) : Reader Value :=
  match kind with
  | "Int" => int <$> F.integer.reader
  | "Float" => float <$> F.float.reader
  | "Decimal" => decimal <$> (F.decimal room S.decimal).reader
  | "String" => string <$> F.string.reader
  | "Boolean" => boolean <$> F.boolean.reader
  | "Date" => date <$> (F.textual "a date" S.date).reader
  | "Timestamp" => timestamp <$> (F.textual "a timestamp" S.timestamp).reader
  | "Bytes" => bytes <$> (F.list "a list of bytes" F.byte).reader
  | _ => (fun _ => null) <$> F.unit.reader

/-- Values in a format, with room for so many brackets. -/
def form (room : Nat) : Form Value :=
  F.variant kinds (tagged F S (room - 1)) ofKind (contentOf F S (room - 1))

end

def json : Form Value := form compact scalars greatestNesting

def jsonText (v : Value) : String := json.text v

def ofJson (s : String) : Except Json.Error Value := json.ofText s

end Value

end SqlExpr
