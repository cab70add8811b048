/-
# Percent encoding

`encode` writes a text as the unreserved characters of a URL and `%XX` escapes.  `decode` is a
machine that reads one octet at a time, undoes complete escapes and leaves everything else as it
is: a `%` that two hexadecimal digits do not follow stands for itself, and reading goes on after
it, or after the one digit that did follow.
-/
import IsolatedSite.Text.Utf8

namespace IsolatedSite.Percent

/-! ## 1. Hexadecimal digits -/

/-- The value of a hexadecimal digit of either case. -/
def hexValue? (b : UInt8) : Option UInt8 :=
  if 48 ≤ b ∧ b ≤ 57 then some (b - 48)
  else if 65 ≤ b ∧ b ≤ 70 then some (b - 55)
  else if 97 ≤ b ∧ b ≤ 102 then some (b - 87)
  else none

/-- The upper-case digit of a value below 16. -/
def hexDigit (v : UInt8) : UInt8 := if v < 10 then v + 48 else v + 55

/-! ## 2. Writing -/

/-- Octets that need no escape. -/
def isUnreserved (b : UInt8) : Bool :=
  Byte.isAlnum b || b == 45 || b == 95 || b == 46 || b == 126

/-- One octet as it is written. -/
def encodeByte (b : UInt8) : Bytes :=
  if isUnreserved b then [b] else [37, hexDigit (b / 16), hexDigit (b % 16)]

/-- The escaped form of a text, which is ASCII. -/
def encode (t : Text) : Text := asciiText ((Utf8.encode t).flatMap encodeByte)

/-! ## 3. Reading -/

/-- Where the reader stands between two octets: outside an escape, after its `%`, or after its
first digit. -/
inductive State where
  | plain
  | afterPercent
  | afterDigit (digit : UInt8)
  deriving DecidableEq, Repr

/-- One octet outside an escape. -/
def start (b : UInt8) : Bytes × State := if b = 37 then ([], .afterPercent) else ([b], .plain)

/-- One octet: what it adds to the reading.  An octet that cannot continue the escape lets what
was read of it stand for itself and is read again outside. -/
def step : State → UInt8 → Bytes × State
  | .plain, b => start b
  | .afterPercent, b =>
    match hexValue? b with
    | some _ => ([], .afterDigit b)
    | none => (37 :: (start b).1, (start b).2)
  | .afterDigit d, b =>
    match hexValue? d, hexValue? b with
    | some hi, some lo => ([hi * 16 + lo], .plain)
    | _, _ => (37 :: d :: (start b).1, (start b).2)

/-- The end of the octets: an incomplete escape stands for itself. -/
def finish : State → Bytes
  | .plain => []
  | .afterPercent => [37]
  | .afterDigit d => [37, d]

/-- The reading of a whole byte string from a given state. -/
def run : State → Bytes → Bytes
  | s, [] => finish s
  | s, b :: bs => (step s b).1 ++ run (step s b).2 bs

/-- Replaces each complete escape by its octet. -/
def decode (b : Bytes) : Bytes := run .plain b

/-- The text behind a percent-encoded URL path, with U+FFFD for octets that are no UTF-8. -/
def decodeText (t : Text) : Text := Utf8.decodeLossy (decode (Utf8.encode t))

end IsolatedSite.Percent
