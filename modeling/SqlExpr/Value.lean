import SqlExpr.Calendar.Timestamp
import SqlExpr.Number.Decimal
import SqlExpr.Number.FloatText
import SqlExpr.Text.Quoted

/-! # Scalar values

The values of constants and of the parts of keys, their plain text and their literal in standard SQL.
-/
namespace SqlExpr

inductive Value where
  | null
  | int (n : Int64)
  | float (x : Binary64)
  | decimal (d : Decimal)
  | string (s : String)
  | boolean (b : Bool)
  | date (d : Date)
  | timestamp (t : Timestamp)
  | bytes (bs : List UInt8)
deriving DecidableEq

namespace Value

def isNull : Value → Bool
  | null => true
  | _ => false

def typeName : Value → String
  | null => "null"
  | int _ => "int"
  | float _ => "float"
  | decimal _ => "decimal"
  | string _ => "string"
  | boolean _ => "boolean"
  | date _ => "date"
  | timestamp _ => "timestamp"
  | bytes _ => "bytes"

/-- Equality of values of one type; floats and decimals are compared as numbers. -/
def equal : Value → Value → Bool
  | null, null => true
  | int a, int b => a == b
  | float a, float b => a.equal b
  | decimal a, decimal b => a.equal b
  | string a, string b => a == b
  | boolean a, boolean b => a == b
  | date a, date b => a == b
  | timestamp a, timestamp b => a == b
  | bytes a, bytes b => a == b
  | _, _ => false

def intText (n : Int64) : String := String.ofList (Text.signed n.toInt)

def hexText (bs : List UInt8) : String := String.ofList (Text.hex bs)

/-- The text of a value without quotes; null and bytes have none. -/
def text? : Value → Option String
  | null => none
  | int n => some (intText n)
  | float x => some (x.text .plain)
  | decimal d => some d.text
  | string s => some s
  | boolean b => some (if b then "true" else "false")
  | date d => some d.text
  | timestamp t => some t.text
  | bytes _ => none

def hex? : Value → Option String
  | bytes bs => some (hexText bs)
  | _ => none

def quotedText (s : String) : String := String.ofList (Text.quoted '\'' s.toList)

/-- The literal in standard SQL: numbers bare, all else in quotes with each quote inside doubled. -/
def literal : Value → String
  | null => "NULL"
  | int n => intText n
  | float x => if x.isFinite then x.text .literal else quotedText x.nonFiniteText
  | decimal d => d.text
  | string s => quotedText s
  | boolean b => if b then "TRUE" else "FALSE"
  | date d => quotedText d.text
  | timestamp t => quotedText t.text
  | bytes bs => "X" ++ quotedText (hexText bs)

end Value

end SqlExpr
