/-
# Dates as mail messages write them

The reader that conditional requests use.  It takes the dates of RFC 2822, with any white space
where the format has white space: `[Sun,] 06 Nov 1994 08:49[:37] GMT (comment)`.  Years of two
and three digits are of the 20th and 21st century, a weekday has to be the date's own, and a
zone is one of the North American names, a single letter, or hours and minutes with a sign.

Each step takes a text and gives what it read and the rest.
-/
import IsolatedSite.Calendar.Instant
import IsolatedSite.Text.Blank

namespace IsolatedSite.Calendar.MailDate

/-! ## 1. Steps -/

/-- One reading step: what was read and what is left. -/
abbrev Step (α : Type) := Text → Option (α × Text)

/-- At least one white-space character, and all that follow it. -/
def blanks : Step Unit
  | [] => none
  | c :: t => if Text.isBlank c then some ((), Text.trimStart t) else none

/-- One given character. -/
def char (c : Char) : Step Unit
  | [] => none
  | d :: t => if c = d then some ((), t) else none

/-- From `least` to `most` digits, as many as there are. -/
def number (least most : Nat) : Step Nat := fun t =>
  let digits := (t.take most).takeWhile Char.isDigit
  if least ≤ digits.length then
    some (Nat.ofDigitChars 10 digits 0, t.drop digits.length)
  else none

/-- The place in a list of the three-letter name that a text begins with, in any case. -/
def name (names : List Text) : Step Nat := fun t =>
  (names.findIdx? fun n => (t.take 3).map Char.toLower == n.map Char.toLower).map fun i =>
    (i, t.drop 3)

/-- A weekday and its comma; a text that begins with no weekday's name has none. -/
def weekday? : Step (Option Nat) := fun t =>
  match name weekdayNames t with
  | none => some (none, t)
  | some (w, t) => (char ',' t).map fun r => (some w, r.2)

/-! ## 2. The parts of a date -/

/-- The year that `digits` digits with value `n` stand for. -/
def fullYear (digits n : Nat) : Nat :=
  if digits = 2 then (if n < 50 then n + 2000 else n + 1900)
  else if digits = 3 then n + 1900 else n

/-- Two digits or more that stand for a year. -/
def year : Step Nat := fun t =>
  (number 2 t.length t).map fun r => (fullYear (t.length - r.2.length) r.1, r.2)

/-- Seconds and the colon before them, if the colon is there. -/
def seconds : Step Nat := fun t =>
  match char ':' (Text.trimStart t) with
  | none => some (0, t)
  | some (_, t) => number 2 2 t

/-- Hours, minutes and, if they are there, seconds. -/
def clock : Step (Nat × Nat × Nat) := fun t => do
  let (h, t) ← number 2 2 t
  let (_, t) ← char ':' (Text.trimStart t)
  let (m, t) ← number 2 2 (Text.trimStart t)
  let (s, t) ← seconds t
  pure ((h, m, s), t)

/-- The hours that a zone's name, in lower case, is ahead of Greenwich. -/
def namedZone? (n : Text) : Option Int :=
  if n = "gmt".toList ∨ n = "ut".toList ∨ n = "z".toList then some 0
  else if n = "edt".toList then some (-4)
  else if n = "est".toList ∨ n = "cdt".toList then some (-5)
  else if n = "cst".toList ∨ n = "mdt".toList then some (-6)
  else if n = "mst".toList ∨ n = "pdt".toList then some (-7)
  else if n = "pst".toList then some (-8)
  else match n with
    | [c] => if c = 'j' then none else some 0
    | _ => none

/-- Hours and minutes of a distance from Greenwich that stays below a day, in seconds. -/
def signedZone (sign : Int) : Step Int := fun t => do
  let (h, t) ← number 2 2 t
  let (m, t) ← number 2 2 t
  if m < 60 ∧ h < 24 then some (sign * (h * 3600 + m * 60), t) else none

/-- A zone, as the seconds that it is ahead of Greenwich. -/
def zone : Step Int := fun t =>
  let letters := t.takeWhile Char.isAlpha
  if letters ≠ [] then
    (namedZone? (letters.map Char.toLower)).map fun h => (h * 3600, t.drop letters.length)
  else match t with
    | '+' :: t => signedZone 1 t
    | '-' :: t => signedZone (-1) t
    | _ => none

/-! ## 3. Comments -/

/-- The text after the end of a comment, `depth` further comments being open around it. -/
def afterComment : (depth : Nat) → Text → Option Text
  | _, [] => none
  | _, ['\\'] => none
  | d, '\\' :: _ :: t => afterComment d t
  | d, '(' :: t => afterComment (d + 1) t
  | 0, ')' :: t => some t
  | d + 1, ')' :: t => afterComment d t
  | d, _ :: t => afterComment d t

/-- Whether a text is comments, each after optional white space, and nothing else. -/
def isComments : (fuel : Nat) → Text → Bool
  | _, [] => true
  | 0, _ :: _ => false
  | fuel + 1, t =>
    match Text.trimStart t with
    | '(' :: t =>
      match afterComment 0 t with
      | some rest => isComments fuel rest
      | none => false
    | _ => false

/-! ## 4. The whole -/

/-- What a date says, before anything is checked. -/
structure Parts where
  weekday : Option Nat
  date : Date
  clock : Nat × Nat × Nat
  offset : Int
  deriving DecidableEq, Repr

/-- Reads the parts of a date that fills the text. -/
def parts? (t : Text) : Option Parts := do
  let (w, t) ← weekday? (Text.trimStart t)
  let (day, t) ← number 1 2 (Text.trimStart t)
  let (_, t) ← blanks t
  let (month, t) ← name monthNames t
  let (_, t) ← blanks t
  let (year, t) ← year t
  let (_, t) ← blanks t
  let (clock, t) ← clock t
  let (_, t) ← blanks t
  let (offset, t) ← zone t
  if isComments t.length t then some ⟨w, ⟨year, month + 1, day⟩, clock, offset⟩ else none

/-- The parts that name a point in time: the date exists, the weekday is its own, the clock's
numbers are in range, and the year is kept both on that clock and in Greenwich. -/
def Parts.instant? (p : Parts) : Option Int :=
  let (h, m, s) := p.clock
  let n := p.date.dayNumber
  let shown := n * secondsPerDay + (h * 3600 + m * 60 + min s 59 : Nat)
  let seconds := shown - p.offset
  if isKnownYear p.date.year ∧ p.date.exists? ∧ (p.weekday.all fun w => w = Calendar.weekday n) ∧
      h < 24 ∧ m < 60 ∧ s ≤ 60 ∧ (Instant.mk seconds 0).isKnown then
    some seconds
  else none

/-- The seconds from the start of 1970 that a date in a header stands for. -/
def read? (value : Text) : Option Int := (parts? (Text.trim value)).bind Parts.instant?

end IsolatedSite.Calendar.MailDate
