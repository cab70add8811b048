/-
# UTF-8

A machine that reads one octet at a time.  Between characters it is `idle`; inside one it knows
how many continuation octets are owed and which range the next of them has to lie in, so that
overlong forms, surrogates and values above U+10FFFF are refused at the first octet that rules
them out.

* `encode` writes text.
* `decode?` reads octets that are wholly well formed.
* `decodeLossy` reads anything: every longest beginning of a character that cannot be continued
  becomes one U+FFFD.

Both readers are the same run, so they agree wherever the first one answers.
-/
import IsolatedSite.Text.Basic

namespace IsolatedSite.Utf8

/-! ## 1. Writing -/

/-- The octets of a text. -/
def encode (t : Text) : Bytes := t.flatMap String.utf8EncodeChar

/-! ## 2. The machine -/

/-- Where the machine stands between two octets. -/
inductive State where
  /-- Between characters. -/
  | idle
  /-- Inside one: `owed + 1` octets are missing, the next lies in `low` to `high`, and the bits
  read so far are `value`. -/
  | inside (owed : Nat) (low high : UInt8) (value : Nat)
  deriving DecidableEq, Repr

/-- One character of the reading, or nothing where the octets hold none. -/
abbrev Event := Option Char

/-- The first octet of a character. -/
def start (b : UInt8) : List Event × State :=
  if b ≤ 0x7F then ([some (Char.ofNat b.toNat)], .idle)
  else if b < 0xC2 then ([none], .idle)
  else if b ≤ 0xDF then ([], .inside 0 0x80 0xBF (b.toNat - 0xC0))
  else if b = 0xE0 then ([], .inside 1 0xA0 0xBF 0)
  else if b = 0xED then ([], .inside 1 0x80 0x9F 0xD)
  else if b ≤ 0xEF then ([], .inside 1 0x80 0xBF (b.toNat - 0xE0))
  else if b = 0xF0 then ([], .inside 2 0x90 0xBF 0)
  else if b ≤ 0xF3 then ([], .inside 2 0x80 0xBF (b.toNat - 0xF0))
  else if b = 0xF4 then ([], .inside 2 0x80 0x8F 4)
  else ([none], .idle)

/-- One octet.  An octet that cannot continue the open character closes it as malformed and is
read again as a first octet. -/
def step : State → UInt8 → List Event × State
  | .idle, b => start b
  | .inside owed low high value, b =>
    if low ≤ b ∧ b ≤ high then
      let bits := value * 64 + (b.toNat - 0x80)
      match owed with
      | 0 => ([some (Char.ofNat bits)], .idle)
      | n + 1 => ([], .inside n 0x80 0xBF bits)
    else
      (none :: (start b).1, (start b).2)

/-- The end of the octets: an open character is malformed. -/
def finish : State → List Event
  | .idle => []
  | .inside .. => [none]

/-- The events of a whole byte string from a given state. -/
def run : State → Bytes → List Event
  | s, [] => finish s
  | s, b :: bs => (step s b).1 ++ run (step s b).2 bs

/-! ## 3. Reading -/

/-- The text of well-formed octets. -/
def decode? (b : Bytes) : Option Text := (run .idle b).mapM id

/-- The text of any octets, with U+FFFD for what is malformed. -/
def decodeLossy (b : Bytes) : Text := (run .idle b).map fun e => e.getD (Char.ofNat 0xFFFD)

end IsolatedSite.Utf8
