/-
# Reading floating-point numbers

Digits with an optional point and exponent, or one of the names `inf`, `infinity` and `nan` in
any case, with an optional sign.  The value is the binary number nearest to what is written.
-/
import IsolatedSite.Number.Binary64
import IsolatedSite.Text.Decimal

namespace IsolatedSite.Number

/-- A sign, and the text behind it. -/
def signed : Text → Bool × Text
  | '-' :: t => (true, t)
  | '+' :: t => (false, t)
  | t => (false, t)

/-- The number nearest to `digits · 10 ^ exponent`.  Exponents that leave the range are cut
short first. -/
def Binary64.ofDecimal (negative : Bool) (digits : Nat) (exponent : Int) : Binary64 :=
  if digits = 0 then .ofRatio negative (0, 1)
  else
    let size : Int := (Nat.toDigits 10 digits).length + exponent
    if 400 < size then .infinite negative
    else if size < -400 then .ofRatio negative (0, 1)
    else .ofRatio negative (times digits (power 10 exponent))

/-- The exponent behind an `e`; none is 0. -/
def exponent? : Text → Option Int
  | [] => some 0
  | c :: t =>
    if c = 'e' ∨ c = 'E' then
      let (negative, digits) := signed t
      (Decimal.value? digits).map fun n => if negative then -(n : Int) else (n : Int)
    else none

/-- A number without a sign. -/
def magnitude? (negative : Bool) (t : Text) : Option Binary64 := do
  let whole := t.takeWhile Char.isDigit
  let rest := t.drop whole.length
  let (fraction, rest) := match rest with
    | '.' :: r => (r.takeWhile Char.isDigit, r.dropWhile Char.isDigit)
    | r => ([], r)
  if whole = [] ∧ fraction = [] then none
  let e ← exponent? rest
  some (.ofDecimal negative (Nat.ofDigitChars 10 (whole ++ fraction) 0) (e - fraction.length))

/-- The number that a text spells. -/
def Binary64.read? (t : Text) : Option Binary64 :=
  let (negative, t) := signed t
  let name := t.map Char.toLower
  if name = "inf".toList ∨ name = "infinity".toList then some (.infinite negative)
  else if name = "nan".toList then some .notANumber
  else magnitude? negative t

end IsolatedSite.Number
