/-
# Durations with three decimals

A number of microseconds as seconds: the division is one of binary floating-point numbers, and
its result is rounded to thousandths, an exact tie going to the even one.
-/
import IsolatedSite.Number.Binary64
import IsolatedSite.Text.Decimal

namespace IsolatedSite.Number

/-- A number of thousandths with its point. -/
def thousandthsText (n : Nat) : Text :=
  Decimal.ofNat (n / 1000) ++ '.' :: Decimal.padded 3 (n % 1000)

/-- A millionth part with three decimals. -/
def millionthsAsThousandths (n : Nat) : Text :=
  match Binary64.ofNat n with
  | .finite _ m e =>
    match Binary64.ofRatio false (quotient (Binary64.size m e) (1000000, 1)) with
    | .finite _ m e => thousandthsText (nearest (quotient (Binary64.size m e) (1, 1000)))
    | _ => "inf".toList
  | _ => "inf".toList

end IsolatedSite.Number
