import SqlExpr.Calendar.Date

/-! # Timestamps

A date with a time of day to the nanosecond. In a leap second, which may follow any second, the nanoseconds
run on from a thousand million, and the text shows one second more: the second 60 at the end of a minute,
and within a minute the second that comes next, from which the leap second is then not told apart. The
fraction of a second has no digits when it is zero, and else the fewest of three, six and nine that lose
nothing.
-/
namespace SqlExpr
open Text

namespace Calendar

def IsTime (hour minute second nanos : Nat) : Prop :=
  hour < 24 ∧ minute < 60 ∧ second < 60 ∧ nanos < 2000000000

instance (hour minute second nanos : Nat) : Decidable (IsTime hour minute second nanos) :=
  inferInstanceAs (Decidable (_ ∧ _ ∧ _ ∧ _))

end Calendar

structure Timestamp where
  date : Date
  hour : Nat
  minute : Nat
  second : Nat
  nanos : Nat
  isTime : Calendar.IsTime hour minute second nanos
deriving DecidableEq

namespace Timestamp

/-- No leap second, or one that ends a minute. -/
def IsRegular (t : Timestamp) : Prop := 1000000000 ≤ t.nanos → t.second = 59

instance (t : Timestamp) : Decidable t.IsRegular := inferInstanceAs (Decidable (_ → _))

/-- Of leap seconds only the regular ones are made from parts. -/
def ofParts? (date : Date) (hour minute second nanos : Nat) : Option Timestamp :=
  if h : Calendar.IsTime hour minute second nanos then
    let t : Timestamp := ⟨date, hour, minute, second, nanos, h⟩
    if t.IsRegular then some t else none
  else none

theorem ofParts?_of_isRegular {t : Timestamp} (h : t.IsRegular) :
    ofParts? t.date t.hour t.minute t.second t.nanos = some t := by
  simp [ofParts?, t.isTime, h]

def shownSecond (t : Timestamp) : Nat := t.second + t.nanos / 1000000000

def fraction (t : Timestamp) : Nat := t.nanos % 1000000000

def fractionChars (nanos : Nat) : List Char :=
  if nanos = 0 then []
  else if nanos % 1000000 = 0 then '.' :: padded 3 (nanos / 1000000)
  else if nanos % 1000 = 0 then '.' :: padded 6 (nanos / 1000)
  else '.' :: padded 9 nanos

def timeChars (t : Timestamp) : List Char :=
  padded 2 t.hour ++ ':' :: padded 2 t.minute ++ ':' :: padded 2 t.shownSecond ++
    fractionChars t.fraction

def chars (mark : Char) (t : Timestamp) : List Char := t.date.chars ++ mark :: t.timeChars

def text (t : Timestamp) : String := String.ofList (t.chars ' ')

/-- The form with a `T` between date and time. -/
def isoText (t : Timestamp) : String := String.ofList (t.chars 'T')

end Timestamp

end SqlExpr
