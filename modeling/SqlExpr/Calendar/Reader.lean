import SqlExpr.Calendar.Timestamp
import SqlExpr.Text.Blank

/-! # Reading dates and timestamps

The fields are read from left to right. White space may stand before each number, before each mark
and at the end, but not behind the point of a fraction. A year without a sign has at most four digits, a year with a
sign any number of them, and the other numbers have one or two.
-/
namespace SqlExpr
namespace Calendar
open Text

/-- A number of one to `limit` digits, white space before it skipped. -/
def number? (limit : Nat) (cs : List Char) : Option (Nat × List Char) :=
  match digitRun limit (skipBlanks cs) with
  | ([], _) => none
  | (run, rest) => some (digitsValue run, rest)

def longNumber? (cs : List Char) : Option (Nat × List Char) :=
  match digitRun cs.length cs with
  | ([], _) => none
  | (run, rest) => some (digitsValue run, rest)

def year? (cs : List Char) : Option (Int × List Char) :=
  match skipBlanks cs with
  | '-' :: cs => (longNumber? cs).map fun p => (-(p.1 : Int), p.2)
  | '+' :: cs => (longNumber? cs).map fun p => ((p.1 : Int), p.2)
  | cs => (number? 4 cs).map fun p => ((p.1 : Int), p.2)

/-- The rest behind a mark, white space before it skipped. -/
def mark? (mark : Char) (cs : List Char) : Option (List Char) :=
  match skipBlanks cs with
  | c :: rest => if c = mark then some rest else none
  | [] => none

def date? (cs : List Char) : Option (Date × List Char) := do
  let (year, cs) ← year? cs
  let cs ← mark? '-' cs
  let (month, cs) ← number? 2 cs
  let cs ← mark? '-' cs
  let (day, cs) ← number? 2 cs
  let date ← Date.ofParts? year month day
  return (date, cs)

/-- The nanoseconds of a fraction, of which the first nine digits count. Without a point there is no
fraction. -/
def fraction? : List Char → Option (Nat × List Char)
  | '.' :: cs =>
    match digitRun cs.length cs with
    | ([], _) => none
    | (run, rest) => some (digitsValue ((run ++ List.replicate 9 '0').take 9), rest)
  | cs => some (0, cs)

/-- The time of a date; second 60 is the leap second of any minute. -/
def atTime? (date : Date) (hour minute second nanos : Nat) : Option Timestamp :=
  if second = 60 then Timestamp.ofParts? date hour minute 59 (nanos + 1000000000)
  else Timestamp.ofParts? date hour minute second nanos

def timestamp? (cs : List Char) : Option (Timestamp × List Char) := do
  let (date, cs) ← date? cs
  let cs ← mark? 'T' cs
  let (hour, cs) ← number? 2 cs
  let cs ← mark? ':' cs
  let (minute, cs) ← number? 2 cs
  let cs ← mark? ':' cs
  let (second, cs) ← number? 2 cs
  let (nanos, cs) ← fraction? cs
  let timestamp ← atTime? date hour minute second nanos
  return (timestamp, cs)

/-- Nothing but white space is left. -/
def finished? {α : Type} : Option (α × List Char) → Option α
  | some (a, rest) => if (skipBlanks rest).isEmpty then some a else none
  | none => none

end Calendar

def Date.ofText? (s : String) : Option Date := Calendar.finished? (Calendar.date? s.toList)

def Timestamp.ofText? (s : String) : Option Timestamp :=
  Calendar.finished? (Calendar.timestamp? s.toList)

end SqlExpr
