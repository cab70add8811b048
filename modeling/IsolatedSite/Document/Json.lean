/-
# JSON documents

The strict notation: no comments, no trailing commas, no control characters inside strings, and
nothing behind the value.  Whole numbers of 64 bits with a sign stay whole; any other number
becomes a floating-point number, and one beyond their range is refused.
-/
import IsolatedSite.Document.Basic
import IsolatedSite.Number.Reading
import IsolatedSite.Text.Hex

namespace IsolatedSite.Document.Json

/-! ## 1. Blanks and numbers -/

/-- What may stand between two tokens. -/
def isBlank (c : Char) : Bool := c == ' ' || c == '\n' || c == '\t' || c == '\r'

/-- The text from the next token on. -/
def skip (t : Text) : Text := t.dropWhile isBlank

/-- Digits, at least one, and the text behind them. -/
def digits? (t : Text) : Option (Text × Text) :=
  let ds := t.takeWhile Char.isDigit
  if ds = [] then none else some (ds, t.drop ds.length)

/-- The digits of a whole part: none in front of others may be 0. -/
def whole? (t : Text) : Option (Text × Text) :=
  (digits? t).filter fun p => p.1.length = 1 || p.1.head? != some '0'

/-- The digits behind a point, if there is one. -/
def fraction? : Text → Option (Option Text × Text)
  | '.' :: t => (digits? t).map fun p => (some p.1, p.2)
  | t => some (none, t)

/-- The exponent behind an `e`, if there is one. -/
def exponent? : Text → Option (Option Int × Text)
  | [] => some (none, [])
  | c :: t =>
    if c = 'e' ∨ c = 'E' then
      let (negative, t) := Number.signed t
      (digits? t).map fun p =>
        let n := Nat.ofDigitChars 10 p.1 0
        (some (if negative then -(n : Int) else (n : Int)), p.2)
    else some (none, c :: t)

/-- The value of a number's parts. -/
def numberOf? (negative : Bool) (whole : Text) (fraction : Option Text) (exponent : Option Int) :
    Option Document :=
  let n := Nat.ofDigitChars 10 whole 0
  let signed : Int := if negative then -(n : Int) else n
  if fraction.isNone ∧ exponent.isNone ∧ isInt64 signed ∧ ¬ (negative ∧ n = 0) then
    some (.int signed)
  else
    let all := whole ++ fraction.getD []
    match Number.Binary64.ofDecimal negative (Nat.ofDigitChars 10 all 0)
        (exponent.getD 0 - (fraction.getD []).length) with
    | .finite s m e => some (.float (.finite s m e))
    | _ => none

/-- A number and the text behind it. -/
def number? (t : Text) : Option (Document × Text) := do
  let (negative, t) := match t with
    | '-' :: t => (true, t)
    | t => (false, t)
  let (whole, t) ← whole? t
  let (fraction, t) ← fraction? t
  let (exponent, t) ← exponent? t
  let d ← numberOf? negative whole fraction exponent
  some (d, t)

/-! ## 2. Strings -/

/-- The character that an escape with one letter stands for. -/
def simpleEscape? : Char → Option Char
  | '"' => some '"'
  | '\\' => some '\\'
  | '/' => some '/'
  | 'b' => some '\x08'
  | 'f' => some '\x0c'
  | 'n' => some '\n'
  | 'r' => some '\r'
  | 't' => some '\t'
  | _ => none

/-- The character of an escape with a number, which may need a second one to be complete. -/
def unicodeEscape? (t : Text) : Option (Char × Text) := do
  let (n, t) ← Hex.take? 4 t
  if n < 0xD800 ∨ 0xE000 ≤ n then some (Char.ofNat n, t)
  else if 0xDC00 ≤ n then none
  else match t with
    | '\\' :: 'u' :: t => do
      let (m, t) ← Hex.take? 4 t
      if 0xDC00 ≤ m ∧ m < 0xE000 then
        some (Char.ofNat (0x10000 + (n - 0xD800) * 0x400 + (m - 0xDC00)), t)
      else none
    | _ => none

/-- The rest of a string and the text behind its closing quote; each character of it takes at
least one of the text, of which there are at most `fuel`. -/
def string? : (fuel : Nat) → Text → Option (Text × Text)
  | 0, _ | _, [] => none
  | _ + 1, '"' :: t => some ([], t)
  | fuel + 1, '\\' :: 'u' :: t => do
    let (c, t) ← unicodeEscape? t
    let (s, t) ← string? fuel t
    some (c :: s, t)
  | fuel + 1, '\\' :: e :: t => do
    let c ← simpleEscape? e
    let (s, t) ← string? fuel t
    some (c :: s, t)
  | fuel + 1, c :: t =>
    if c.toNat < 32 ∨ c = '\\' then none
    else (string? fuel t).map fun p => (c :: p.1, p.2)

/-! ## 3. Values -/

/-- How deep lists and tables may be nested. -/
def maxDepth : Nat := 127

/-- A given word at the start of a text. -/
def word? (word : String) (d : Document) (t : Text) : Option (Document × Text) :=
  (afterStart? word.toList t).map fun rest => (d, rest)

mutual

/-- A value and the text behind it. -/
def value? (depth : Nat) : (fuel : Nat) → Text → Option (Document × Text)
  | 0, _ => none
  | fuel + 1, t => match skip t with
    | '\x7b' :: t =>
      if depth = 0 then none
      else match skip t with
        | '\x7d' :: t => some (.table [], t)
        | t => (members? (depth - 1) fuel [] t).map fun p => (.table p.1, p.2)
    | '[' :: t =>
      if depth = 0 then none
      else match skip t with
        | ']' :: t => some (.list [], t)
        | t => (items? (depth - 1) fuel t).map fun p => (.list p.1, p.2)
    | '"' :: t => (string? (t.length + 1) t).map fun p => (.text p.1, p.2)
    | 'n' :: t => word? "null" .null ('n' :: t)
    | 't' :: t => word? "true" (.bool true) ('t' :: t)
    | 'f' :: t => word? "false" (.bool false) ('f' :: t)
    | t => number? t

/-- The items of a list up to its closing bracket. -/
def items? (depth : Nat) : (fuel : Nat) → Text → Option (List Document × Text)
  | 0, _ => none
  | fuel + 1, t => do
    let (d, t) ← value? depth fuel t
    match skip t with
    | ',' :: t => do
      let (ds, t) ← items? depth fuel t
      some (d :: ds, t)
    | ']' :: t => some ([d], t)
    | _ => none

/-- The members of a table up to its closing brace, behind the ones that were read already. -/
def members? (depth : Nat) : (fuel : Nat) → List (Text × Document) → Text →
    Option (List (Text × Document) × Text)
  | 0, _, _ => none
  | fuel + 1, read, t => match skip t with
    | '"' :: t => do
      let (key, t) ← string? (t.length + 1) t
      match skip t with
      | ':' :: t => do
        let (d, t) ← value? depth fuel t
        let read := putMember key d read
        match skip t with
        | ',' :: t => members? depth fuel read t
        | '\x7d' :: t => some (read, t)
        | _ => none
      | _ => none
    | _ => none

end

/-- The document that a text spells.  Two calls at most stand between two characters that are
consumed, which bounds the fuel. -/
def read? (t : Text) : Option Document := do
  let (d, rest) ← value? maxDepth (2 * t.length + 2) t
  if skip rest = [] then some d else none

end IsolatedSite.Document.Json
