/-
# Decimal numbers as text

Whole numbers are written with as many digits as they need, or padded with zeros on the left.
Reading has two strengths: a plain digit string, and a digit string that may carry a plus sign.
-/
import IsolatedSite.Text.Basic

namespace IsolatedSite.Decimal

/-! ## 1. Writing -/

/-- The digits of a number. -/
def ofNat (n : Nat) : Text := Nat.toDigits 10 n

/-- The digits of a number, with zeros in front up to `width`. -/
def padded (width n : Nat) : Text :=
  List.replicate (width - (ofNat n).length) '0' ++ ofNat n

/-- A number with a minus sign if it is negative. -/
def ofInt (n : Int) : Text := (if n < 0 then ['-'] else []) ++ ofNat n.natAbs

/-- The octets of a number's digits. -/
def bytes (n : Nat) : Bytes := (ofNat n).map fun c => c.toNat.toUInt8

/-! ## 2. Reading -/

/-- The number that a non-empty string of ASCII digits denotes. -/
def value? (t : Text) : Option Nat :=
  if t ≠ [] ∧ t.all Char.isDigit then some (Nat.ofDigitChars 10 t 0) else none

/-- Like `value?`, below `limit`. -/
def below? (limit : Nat) (t : Text) : Option Nat := (value? t).filter fun n => n < limit

/-- Like `below?`, with a plus sign allowed in front of the digits. -/
def unsigned? (limit : Nat) : Text → Option Nat
  | '+' :: t => below? limit t
  | t => below? limit t

/-- A signed 64-bit number: digits with an optional sign in front. -/
def signed64? : Text → Option Int
  | '-' :: t => (below? (Nat.pow 2 63 + 1) t).map fun n => -(n : Int)
  | '+' :: t => (below? (Nat.pow 2 63) t).map fun n => (n : Int)
  | t => (below? (Nat.pow 2 63) t).map fun n => (n : Int)

end IsolatedSite.Decimal
