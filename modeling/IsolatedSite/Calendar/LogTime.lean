/-
# Times in access logs

Two forms of a local time: the bracketed one of the common log format,
`06/Nov/1994:08:49:37 +0000`, and the one of RFC 3339, `1994-11-06T08:49:37.001+00:00`.  The
distance from Greenwich is rounded to the nearest minute in both.
-/
import IsolatedSite.Calendar.Instant

namespace IsolatedSite.Calendar

/-- Hours and minutes of a distance from Greenwich, `sep` between them. -/
def offsetText (sep : Text) (offset : Int) : Text :=
  let minutes := (offset.natAbs + 30) / 60
  (if offset < 0 then '-' else '+') :: Decimal.padded 2 (minutes / 60) ++ sep ++
    Decimal.padded 2 (minutes % 60)

/-- The fraction of a second with as many groups of three digits as it needs. -/
def fractionText (nanos : Nat) : Text :=
  let n := nanos % 1000000000
  if n = 0 then []
  else if n % 1000000 = 0 then '.' :: Decimal.padded 3 (n / 1000000)
  else if n % 1000 = 0 then '.' :: Decimal.padded 6 (n / 1000)
  else '.' :: Decimal.padded 9 n

/-- The time of the common log format. -/
def LocalTime.commonText (t : LocalTime) : Text :=
  let d := t.shown.date
  Decimal.padded 2 d.day ++ '/' :: monthName d.month ++ '/' :: yearText d.year ++
    ':' :: t.shown.clockText ++ ' ' :: offsetText [] t.offset

/-- The time of RFC 3339. -/
def LocalTime.isoText (t : LocalTime) : Text :=
  let d := t.shown.date
  yearText d.year ++ '-' :: Decimal.padded 2 d.month ++ '-' :: Decimal.padded 2 d.day ++
    'T' :: t.shown.clockText ++ fractionText t.instant.nanos ++ offsetText [':'] t.offset

end IsolatedSite.Calendar
