/-
# Binary floating-point numbers of 64 bits

A finite number is a whole number times a power of two; both are kept as they are, so that every
rule can be stated exactly.  `ofRatio` rounds a quotient to the nearest such number, an exact tie
going to the even neighbour.
-/
import IsolatedSite.Text.Basic

namespace IsolatedSite.Number

/-! ## 1. Exact quotients -/

/-- A quotient of whole numbers; the denominator is not 0. -/
abbrev Ratio := Nat × Nat

/-- A power, as a quotient if the exponent is negative. -/
def power (base : Nat) (exponent : Int) : Ratio :=
  if 0 ≤ exponent then (Nat.pow base exponent.toNat, 1)
  else (1, Nat.pow base (-exponent).toNat)

/-- A whole number times a quotient. -/
def times (n : Nat) (r : Ratio) : Ratio := (n * r.1, r.2)

/-- The quotient of two quotients. -/
def quotient (r s : Ratio) : Ratio := (r.1 * s.2, r.2 * s.1)

/-- The order of quotients. -/
def Ratio.le (r s : Ratio) : Bool := r.1 * s.2 ≤ s.1 * r.2

/-- The whole number nearest to a quotient, an exact tie going to the even one. -/
def nearest (r : Ratio) : Nat :=
  let down := r.1 / r.2
  let twice := 2 * (r.1 % r.2)
  if twice < r.2 ∨ (twice = r.2 ∧ down % 2 = 0) then down else down + 1

/-! ## 2. Numbers -/

/-- A number: `significand · 2 ^ exponent` with a sign, an infinity, or no number. -/
inductive Binary64 where
  | finite (negative : Bool) (significand : Nat) (exponent : Int)
  | infinite (negative : Bool)
  | notANumber
  deriving DecidableEq, Repr

namespace Binary64

/-- The least exponent, that of the numbers next to 0. -/
def leastExponent : Int := -1074

/-- The exponent with which a positive quotient has a significand of 53 bits. -/
def exponentOf (r : Ratio) : Int :=
  let a : Int := Nat.log2 r.1
  let b : Int := Nat.log2 r.2
  let guess := a - b - 52
  if Ratio.le (times (Nat.pow 2 52) (power 2 guess)) r then guess else guess - 1

/-- The number nearest to a quotient. -/
def ofRatio (negative : Bool) (r : Ratio) : Binary64 :=
  if r.1 = 0 then .finite negative 0 leastExponent
  else
    let e := max leastExponent (exponentOf r)
    let m := nearest (quotient r (power 2 e))
    if Ratio.le (power 2 1024) (times m (power 2 e)) then .infinite negative
    else if m = Nat.pow 2 53 then .finite negative (Nat.pow 2 52) (e + 1)
    else .finite negative m e

/-- The number nearest to a whole number. -/
def ofNat (n : Nat) : Binary64 := ofRatio false (n, 1)

/-- The quotient that the size of a finite number is. -/
def size (significand : Nat) (exponent : Int) : Ratio := times significand (power 2 exponent)

/-- Whether it is 0, of either sign. -/
def isZero : Binary64 → Bool
  | .finite _ m _ => m == 0
  | _ => false

/-- The nearest whole number below `limit`, a half going away from 0; what is out of range goes
to the nearer end, and what is no number to 0. -/
def toNatSaturating (limit : Nat) : Binary64 → Nat
  | .finite true _ _ => 0
  | .finite false m e =>
    let r := size m e
    min (limit - 1) ((2 * r.1 + r.2) / (2 * r.2))
  | .infinite true => 0
  | .infinite false => limit - 1
  | .notANumber => 0

end Binary64

end IsolatedSite.Number
