import SqlExpr.Json.Shape
import SqlExpr.Number.Decimal

/-! # Readers for scalars

Numbers of a certain range, strings, and data of other types that are written as strings. A decimal may be
given as a number as well.
-/
namespace SqlExpr.Json

def integer : Reader Int64 :=
  number "i64" fun
    | .natural n =>
      if n < Nat.pow 2 63 then .ok (Int64.ofNat n) else .error (.wrongValue "i64")
    | .negative n => .ok (Int64.ofInt (-(n : Int)))
    | .float _ => .error (.wrongValue "i64")

/-- Any number, rounded if need be. -/
def float : Reader Binary64 :=
  number "f64" fun
    | .natural n => .ok (.ofNat n)
    | .negative n => .ok (.ofInt (-(n : Int)))
    | .float x => .ok x

def byte : Reader UInt8 :=
  number "u8" fun
    | .natural n => if n < 256 then .ok (UInt8.ofNat n) else .error (.wrongValue "u8")
    | _ => .error (.wrongValue "u8")

def text : Reader String := string "a string" .ok

def understood {α : Type} (expected : String) (read : String → Option α) : Reader α :=
  string expected fun s =>
    match read s with
    | some a => .ok a
    | none => .error (.wrongValue expected)

/-! ## Decimals -/

/-- A string or a number; a number is taken exactly. -/
def bareDecimal (read : String → Option Decimal) : Reader Decimal := do
  let c ← Reader.token
  if c = some '"' then understood "a decimal" read
  else if c.any fun c => c = '-' ∨ c.isDigit then
    number "a decimal" fun
      | .natural n => .ok (.ofInt n)
      | .negative n => .ok (.ofInt (-(n : Int)))
      | .float x => .ok (.ofBinary64 x)
  else if c.isNone then Reader.failHere .endOfValue
  else mismatch "a decimal"

def numberKey : String := "$serde_json::private::Number"

/-- A decimal that may stand in an object of its own, and that object in another one, as long as there
is room for the brackets. -/
def decimal (read : String → Option Decimal) : Nat → Reader Decimal
  | 0 => do
    let c ← Reader.token
    if c = some '{' ∨ c = some '[' then Reader.failHere .nestedTooDeeply else bareDecimal read
  | room + 1 => do
    if (← Reader.token) = some '{' then wrapped "a decimal" numberKey (decimal read room)
    else bareDecimal read

end SqlExpr.Json
