/-
# The Gregorian calendar

Days are counted from 1 January 1970, backwards and forwards without a break.  A year begins in
March for the arithmetic, so that the day that a leap year adds is its last; `dayNumber` and
`ofDayNumber` are closed formulas over the 400-year cycle of 146097 days.
-/
import IsolatedSite.Text.Decimal

namespace IsolatedSite.Calendar

/-! ## 1. Dates -/

/-- A day of the calendar: month 1 to 12, day 1 to 31. -/
structure Date where
  year : Int
  month : Nat
  day : Nat
  deriving DecidableEq, Repr

/-- Leap years: every fourth, less the centuries that 400 does not divide. -/
def isLeap (y : Int) : Bool := y % 4 == 0 && (y % 100 != 0 || y % 400 == 0)

/-- The number of days of a month. -/
def daysInMonth (y : Int) (m : Nat) : Nat :=
  if m = 2 then (if isLeap y then 29 else 28)
  else if m = 4 ∨ m = 6 ∨ m = 9 ∨ m = 11 then 30 else 31

/-- The dates that exist. -/
def Date.exists? (d : Date) : Bool :=
  1 ≤ d.month && d.month ≤ 12 && 1 ≤ d.day && d.day ≤ daysInMonth d.year d.month

/-- The number of a date's day. -/
def Date.dayNumber (d : Date) : Int :=
  let y : Int := if d.month ≤ 2 then d.year - 1 else d.year
  let cycle := y / 400
  let yearOfCycle := y - cycle * 400
  let monthFromMarch : Int := if d.month ≤ 2 then d.month + 9 else d.month - 3
  let dayOfYear := (153 * monthFromMarch + 2) / 5 + d.day - 1
  let dayOfCycle := yearOfCycle * 365 + yearOfCycle / 4 - yearOfCycle / 100 + dayOfYear
  cycle * 146097 + dayOfCycle - 719468

/-- The date of a numbered day. -/
def Date.ofDayNumber (n : Int) : Date :=
  let z := n + 719468
  let cycle := z / 146097
  let dayOfCycle := z - cycle * 146097
  let yearOfCycle :=
    (dayOfCycle - dayOfCycle / 1460 + dayOfCycle / 36524 - dayOfCycle / 146096) / 365
  let dayOfYear := dayOfCycle - (365 * yearOfCycle + yearOfCycle / 4 - yearOfCycle / 100)
  let monthFromMarch := (5 * dayOfYear + 2) / 153
  let day := dayOfYear - (153 * monthFromMarch + 2) / 5 + 1
  let month := if monthFromMarch < 10 then monthFromMarch + 3 else monthFromMarch - 9
  let year := yearOfCycle + cycle * 400
  ⟨if month ≤ 2 then year + 1 else year, month.toNat, day.toNat⟩

/-- The day of the week of a numbered day, Sunday being 0. -/
def weekday (n : Int) : Nat := ((n + 4) % 7).toNat

/-! ## 2. Names -/

/-- The days of the week, from Sunday. -/
def weekdayNames : List Text :=
  ["Sun", "Mon", "Tue", "Wed", "Thu", "Fri", "Sat"].map String.toList

/-- The months, from January. -/
def monthNames : List Text :=
  ["Jan", "Feb", "Mar", "Apr", "May", "Jun", "Jul", "Aug", "Sep", "Oct", "Nov", "Dec"].map
    String.toList

/-- The name of a day of the week. -/
def weekdayName (w : Nat) : Text := weekdayNames.getD w []

/-- The name of a month. -/
def monthName (m : Nat) : Text := monthNames.getD (m - 1) []

/-! ## 3. Years -/

/-- The first year that dates are kept for. -/
def firstYear : Int := -262143

/-- The last year that dates are kept for. -/
def lastYear : Int := 262142

/-- The years that dates are kept for. -/
def isKnownYear (y : Int) : Bool := firstYear ≤ y && y ≤ lastYear

/-- A year has four digits at least; one outside 0 to 9999 shows its sign. -/
def yearText (y : Int) : Text :=
  (if y < 0 then ['-'] else if 9999 < y then ['+'] else []) ++ Decimal.padded 4 y.natAbs

end IsolatedSite.Calendar
