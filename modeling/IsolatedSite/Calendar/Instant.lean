/-
# Points in time

An instant is a whole number of seconds from the start of 1970 and a fraction of the second that
follows, so that dropping the fraction always rounds down.  `LocalTime` is an instant as a clock
at some distance from Greenwich shows it.
-/
import IsolatedSite.Calendar.Date

namespace IsolatedSite.Calendar

/-- Seconds from the start of 1970, rounded down, and the nanoseconds after them.  Nanoseconds
from 10⁹ up stand for a leap second. -/
structure Instant where
  seconds : Int
  nanos : Nat
  deriving DecidableEq, Repr

/-- The seconds of a day. -/
def secondsPerDay : Int := 86400

/-- The number of an instant's day. -/
def Instant.dayNumber (t : Instant) : Int := t.seconds / secondsPerDay

/-- The seconds since an instant's midnight. -/
def Instant.secondOfDay (t : Instant) : Nat := (t.seconds % secondsPerDay).toNat

/-- The date of an instant. -/
def Instant.date (t : Instant) : Date := Date.ofDayNumber t.dayNumber

/-- An instant of a year that dates are kept for. -/
def Instant.isKnown (t : Instant) : Bool := isKnownYear t.date.year

/-- Hours, minutes and seconds with colons between them; a leap second counts as one more. -/
def Instant.clockText (t : Instant) : Text :=
  let s := t.secondOfDay
  Decimal.padded 2 (s / 3600) ++ ':' :: Decimal.padded 2 (s / 60 % 60) ++
    ':' :: Decimal.padded 2 (s % 60 + t.nanos / 1000000000)

/-- The instant a number of seconds later. -/
def Instant.later (t : Instant) (seconds : Int) : Instant := ⟨t.seconds + seconds, t.nanos⟩

/-- An instant and the seconds by which the clock that shows it is ahead of Greenwich. -/
structure LocalTime where
  instant : Instant
  offset : Int
  deriving DecidableEq, Repr

/-- What the clock shows, as if it stood in Greenwich. -/
def LocalTime.shown (t : LocalTime) : Instant := t.instant.later t.offset

end IsolatedSite.Calendar
