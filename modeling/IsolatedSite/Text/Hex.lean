/-
# Hexadecimal numbers as text

Digits of either case.
-/
import IsolatedSite.Text.Basic

namespace IsolatedSite.Hex

/-- A hexadecimal digit of either case. -/
def isDigit (c : Char) : Bool :=
  c.isDigit || ('a' ≤ c && c ≤ 'f') || ('A' ≤ c && c ≤ 'F')

/-- The value of a hexadecimal digit. -/
def digitValue (c : Char) : Nat :=
  if c.isDigit then c.toNat - 48 else if c.isUpper then c.toNat - 55 else c.toNat - 87

/-- The number that digits spell. -/
def value (digits : Text) : Nat := digits.foldl (fun n c => n * 16 + digitValue c) 0

/-- The number that the first `n` characters spell, and the text behind them; none if they are
not that many digits. -/
def take? (n : Nat) (t : Text) : Option (Nat × Text) :=
  let digits := t.take n
  if digits.length = n ∧ digits.all isDigit then some (value digits, t.drop n) else none

end IsolatedSite.Hex
