/-
# TOML scalars

Strings in their four spellings, numbers, truth values, and dates, which become texts in their
standard form.  Every reader gives what it read and the text behind it, except for those that
judge a whole token.
-/
import IsolatedSite.Calendar.Date
import IsolatedSite.Document.Basic
import IsolatedSite.Number.Reading
import IsolatedSite.Text.Hex

namespace IsolatedSite.Document.Toml

/-! ## 1. Characters -/

/-- A space or a tab. -/
def isBlank (c : Char) : Bool := c == ' ' || c == '\t'

/-- The text behind a line's end, at which it has to stand. -/
def newline? : Text → Option Text
  | '\n' :: t => some t
  | '\r' :: '\n' :: t => some t
  | _ => none

/-- A character that may stand in comments and strings: a tab, or no control character. -/
def isPlain (c : Char) : Bool := c == '\t' || (32 ≤ c.toNat && c.toNat != 127)

/-- The text behind a comment, if there is one; the line's end stays. -/
def skipComment : Text → Text
  | '#' :: t => t.dropWhile isPlain
  | t => t

/-! ## 2. Strings -/

/-- The text behind a line that ends in a backslash, up to what is no blank: none if something
else stands on the line. -/
def joinedLine? (t : Text) : Option Text :=
  (newline? (t.dropWhile isBlank)).map fun t =>
    t.dropWhile fun c => isBlank c || c == '\n' || c == '\r'

/-- The character of a numbered escape. -/
def numbered? (digits : Nat) (t : Text) : Option (Char × Text) :=
  (Hex.take? digits t).bind fun p =>
    if Nat.isValidChar p.1 then some (Char.ofNat p.1, p.2) else none

/-- The character that an escape stands for, from behind its backslash. -/
def escape? : Text → Option (Char × Text)
  | 'b' :: t => some ('\x08', t)
  | 't' :: t => some ('\t', t)
  | 'n' :: t => some ('\n', t)
  | 'f' :: t => some ('\x0c', t)
  | 'r' :: t => some ('\r', t)
  | '"' :: t => some ('"', t)
  | '\\' :: t => some ('\\', t)
  | 'u' :: t => numbered? 4 t
  | 'U' :: t => numbered? 8 t
  | _ => none

/-- The rest of a string on one line, `quote` being what ends it. -/
def line? (quote : Char) : (fuel : Nat) → Text → Option (Text × Text)
  | 0, _ | _, [] => none
  | fuel + 1, c :: t =>
    if c = quote then some ([], t)
    else if c = '\\' ∧ quote = '"' then do
      let (x, t) ← escape? t
      let (s, t) ← line? quote fuel t
      some (x :: s, t)
    else if isPlain c then (line? quote fuel t).map fun p => (c :: p.1, p.2)
    else none

/-- The rest of a string over several lines.  Up to two quotes may stand right before the three
that end it. -/
def lines? (quote : Char) : (fuel : Nat) → Text → Option (Text × Text)
  | 0, _ => none
  | fuel + 1, t =>
    let quotes := (t.takeWhile (· == quote)).length
    if 3 ≤ quotes then
      if quotes ≤ 5 then some (List.replicate (quotes - 3) quote, t.drop quotes) else none
    else match newline? t, t with
      | some rest, _ => (lines? quote fuel rest).map fun p => ('\n' :: p.1, p.2)
      | none, [] => none
      | none, c :: t =>
        if c = '\\' ∧ quote = '"' then
          match joinedLine? t with
          | some t => lines? quote fuel t
          | none => do
            let (x, t) ← escape? t
            let (s, t) ← lines? quote fuel t
            some (x :: s, t)
        else if isPlain c then (lines? quote fuel t).map fun p => (c :: p.1, p.2)
        else none

/-- A string on one line or several, from its first quote on. -/
def string? (t : Text) : Option (Text × Text) :=
  let fuel := t.length + 1
  match t with
  | '"' :: '"' :: '"' :: t => lines? '"' fuel ((newline? t).getD t)
  | '\'' :: '\'' :: '\'' :: t => lines? '\'' fuel ((newline? t).getD t)
  | '"' :: t => line? '"' fuel t
  | '\'' :: t => line? '\'' fuel t
  | _ => none

/-! ## 3. Numbers -/

/-- Digits without the underscores between them: an underscore needs a digit on either side. -/
def joined? (isDigit : Char → Bool) (t : Text) : Option Text :=
  if (splitAtEach '_' t).all fun p => p ≠ [] && p.all isDigit then some (t.filter (· ≠ '_'))
  else none

/-- The number that digits to a base spell. -/
def based? (base : Nat) (isDigit : Char → Bool) (t : Text) : Option Int :=
  (joined? isDigit t).map fun ds => (ds.foldl (fun n c => n * base + Hex.digitValue c) 0 : Nat)

/-- A decimal whole part: none in front of others may be 0. -/
def decimal? (t : Text) : Option Text :=
  (joined? Char.isDigit t).filter fun ds => ds.length = 1 || ds.head? != some '0'

/-- A whole number. -/
def int? : Text → Option Int
  | '0' :: 'x' :: t => based? 16 Hex.isDigit t
  | '0' :: 'o' :: t => based? 8 (fun c => '0' ≤ c && c ≤ '7') t
  | '0' :: 'b' :: t => based? 2 (fun c => c == '0' || c == '1') t
  | t =>
    let (negative, t) := Number.signed t
    (decimal? t).map fun ds =>
      let n : Int := Nat.ofDigitChars 10 ds 0
      if negative then -n else n

/-- The parts of a text before and behind the first character that satisfies `p`, and whether
there is one. -/
def cutWhere (p : Char → Bool) (t : Text) : Text × Option Text :=
  match t.dropWhile (fun c => ! p c) with
  | [] => (t, none)
  | _ :: rest => (t.takeWhile (fun c => ! p c), some rest)

/-- A floating-point number with digits. -/
def decimalFloat? (negative : Bool) (t : Text) : Option Number.Binary64 := do
  let (mantissa, exponent) := cutWhere (fun c => c == 'e' || c == 'E') t
  let (whole, fraction) := cutWhere (· == '.') mantissa
  if fraction.isNone ∧ exponent.isNone then none
  let whole ← decimal? whole
  let fraction ← match fraction with
    | none => some []
    | some f => joined? Char.isDigit f
  let e : Int ← match exponent with
    | none => some (0 : Int)
    | some e =>
      let (down, e) := Number.signed e
      (joined? Char.isDigit e).map fun ds =>
        let n : Int := Nat.ofDigitChars 10 ds 0
        if down then -n else n
  match Number.Binary64.ofDecimal negative (Nat.ofDigitChars 10 (whole ++ fraction) 0)
      (e - fraction.length) with
  | .finite s m e => some (.finite s m e)
  | _ => none

/-- A floating-point number; digits beyond the range are refused. -/
def float? (t : Text) : Option Number.Binary64 :=
  let (negative, t) := Number.signed t
  if t = "inf".toList then some (.infinite negative)
  else if t = "nan".toList then some .notANumber
  else decimalFloat? negative t

/-! ## 4. Dates and times -/

/-- The number that exactly `n` digits spell. -/
def fixed? (n : Nat) (t : Text) : Option Nat :=
  if t.length = n then Decimal.value? t else none

/-- Whether a text is a date. -/
def isDate (t : Text) : Bool :=
  match splitAtEach '-' t with
  | [y, m, d] => match fixed? 4 y, fixed? 2 m, fixed? 2 d with
    | some y, some m, some d =>
      1 ≤ m && m ≤ 12 && 1 ≤ d && d ≤ Calendar.daysInMonth (y : Int) m
    | _, _, _ => false
  | _ => false

/-- The standard form of a time of day: nine decimals at most, and none that are 0 at the end. -/
def time? (t : Text) : Option Text :=
  let (clock, fraction) := cutWhere (· == '.') t
  match splitAtEach ':' clock with
  | [h, m, s] => match fixed? 2 h, fixed? 2 m, fixed? 2 s with
    | some hn, some mn, some sn =>
      if 24 ≤ hn ∨ 60 ≤ mn ∨ 60 < sn then none
      else match fraction with
        | none => some clock
        | some f =>
          if f = [] ∨ ¬ f.all Char.isDigit then none
          else
            let kept := trimEnd (· == '0') (f.take 9)
            some (if kept = [] then clock else clock ++ '.' :: kept)
    | _, _, _ => none
  | _ => none

/-- The standard form of a distance from UTC, sign included. -/
def offset? : Text → Option Text
  | [] => some []
  | [c] => if c = 'Z' ∨ c = 'z' then some ['Z'] else none
  | sign :: t =>
    match splitAtEach ':' t with
    | [h, m] => match fixed? 2 h, fixed? 2 m with
      | some hn, some mn => if hn < 24 ∧ mn < 60 then some (sign :: t) else none
      | _, _ => none
    | _ => none

/-- The standard form of a date, a time, or both. -/
def moment? (t : Text) : Option Text :=
  if isDate t then some t
  else if isDate (t.take 10) then
    match t.drop 10 with
    | c :: rest =>
      if c = 'T' ∨ c = 't' ∨ c = ' ' then do
        let clock := rest.takeWhile fun c => c.isDigit || c == ':' || c == '.'
        let time ← time? clock
        let zone ← offset? (rest.drop clock.length)
        some (t.take 10 ++ 'T' :: time ++ zone)
      else none
    | [] => none
  else time? t

/-! ## 5. Tokens -/

/-- A character of a number, truth value or date. -/
def isTokenChar (c : Char) : Bool := c.isAlphanum || ['+', '-', '.', '_', ':'].contains c

/-- A token and the text behind it.  A date and a time with a space between them are one. -/
def token (t : Text) : Text × Text :=
  let first := t.takeWhile isTokenChar
  match t.drop first.length with
  | ' ' :: c :: rest =>
    if isDate first ∧ c.isDigit then
      let second := (c :: rest).takeWhile isTokenChar
      (first ++ ' ' :: second, (c :: rest).drop second.length)
    else (first, ' ' :: c :: rest)
  | rest => (first, rest)

/-- What a token stands for. -/
def scalar? (t : Text) : Option Document :=
  if t = "true".toList then some (.bool true)
  else if t = "false".toList then some (.bool false)
  else match int? t, float? t, moment? t with
    | some n, _, _ => if isInt64 n then some (.int n) else none
    | _, some x, _ => some (.float x)
    | _, _, some m => some (.text m)
    | _, _, _ => none

end IsolatedSite.Document.Toml
