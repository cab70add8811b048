/-
# The shortest decimal

Of all decimals that round to a given binary number, the one with the fewest digits; of several
with equally many the nearest, and of two equally near the larger.
-/
import IsolatedSite.Number.Binary64
import IsolatedSite.Text.Decimal

namespace IsolatedSite.Number

/-- A whole number times a power of ten. -/
structure Decimal10 where
  digits : Nat
  exponent : Int
  deriving DecidableEq, Repr

namespace Decimal10

/-- The quotient that a decimal is. -/
def ratio (d : Decimal10) : Ratio := times d.digits (power 10 d.exponent)

/-- The `k` with `10 ^ (k - 1) ≤ r < 10 ^ k`, for a positive quotient. -/
def magnitude (r : Ratio) : Int :=
  if r.2 ≤ r.1 then ((Nat.toDigits 10 (r.1 / r.2)).length : Int)
  else 1 - ((Nat.toDigits 10 ((r.2 - 1) / r.1)).length : Int)

/-- The ends of the interval of what rounds to `m · 2 ^ e`, in quarters of its last place. -/
def ends (m : Nat) (e : Int) : Ratio × Ratio :=
  let quarter := power 2 (e - 2)
  let below := if m = Nat.pow 2 52 ∧ Binary64.leastExponent < e then 1 else 2
  (times (4 * m - below) quarter, times (4 * m + 2) quarter)

/-- Whether a decimal rounds to `m · 2 ^ e`.  The ends of the interval do if `m` is even. -/
def roundsTo (m : Nat) (e : Int) (d : Decimal10) : Bool :=
  let (low, high) := ends m e
  if m % 2 = 0 then Ratio.le low d.ratio && Ratio.le d.ratio high
  else !Ratio.le d.ratio low && !Ratio.le high d.ratio

/-- The decimal with `n` digits that stands for `m · 2 ^ e`, if one does. -/
def withDigits? (m : Nat) (e : Int) (n : Nat) : Option Decimal10 :=
  let r := Binary64.size m e
  let place := magnitude r - n
  let grid := quotient r (power 10 place)
  let down := grid.1 / grid.2
  let lower : Decimal10 := ⟨down, place⟩
  let upper : Decimal10 :=
    if down + 1 = Nat.pow 10 n then ⟨1, place + n⟩ else ⟨down + 1, place⟩
  if roundsTo m e lower ∧ (¬ roundsTo m e upper ∨ 2 * (grid.1 % grid.2) < grid.2) then some lower
  else if roundsTo m e upper then some upper
  else none

/-- The shortest decimal that stands for a positive `m · 2 ^ e`. -/
def shortest (m : Nat) (e : Int) : Decimal10 :=
  ((List.range 17).findSome? fun i => withDigits? m e (i + 1)).getD ⟨m, e⟩

/-- The digits with a point, and without an exponent. -/
def text (d : Decimal10) : Text :=
  let ds := Decimal.ofNat d.digits
  if 0 ≤ d.exponent then ds ++ List.replicate d.exponent.toNat '0'
  else
    let places := (-d.exponent).toNat
    let all := List.replicate (places + 1 - ds.length) '0' ++ ds
    all.take (all.length - places) ++ '.' :: all.drop (all.length - places)

end Decimal10

/-- A number as people write it: its shortest decimal without an exponent. -/
def Binary64.text : Binary64 → Text
  | .finite negative m e =>
    (if negative then ['-'] else []) ++
      (if m = 0 then ['0'] else (Decimal10.shortest m e).text)
  | .infinite negative => (if negative then ['-'] else []) ++ "inf".toList
  | .notANumber => "NaN".toList

end IsolatedSite.Number
