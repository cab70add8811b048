/-
# Dates in HTTP headers

The fixed-width form `Sun, 06 Nov 1994 08:49:37 GMT`.  There is none for an instant outside the
years that dates are kept for.
-/
import IsolatedSite.Calendar.Instant

namespace IsolatedSite.Calendar

/-- The text of an instant whose year is known to be in range. -/
def httpDateText (t : Instant) : Text :=
  let d := t.date
  weekdayName (weekday t.dayNumber) ++ ", ".toList ++ Decimal.padded 2 d.day ++
    ' ' :: monthName d.month ++ ' ' :: yearText d.year ++ ' ' :: t.clockText ++ " GMT".toList

/-- The header form of an instant. -/
def httpDate? (t : Instant) : Option Text :=
  if t.isKnown then some (httpDateText t) else none

end IsolatedSite.Calendar
