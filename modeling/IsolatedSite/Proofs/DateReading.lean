/-
# Header dates read back

The reader of mail dates takes any date that the server writes, and finds the second that it was
written for (`read?_httpDateText`).  Each step of the reader gets a lemma on a text that begins
with what the step looks for and goes on with anything (`… ++ rest`), so that the whole is those
lemmas in a row.  The years stay within 0 and 9999: one with a sign is no year to the reader.
-/
import IsolatedSite.Calendar.HttpDate
import IsolatedSite.Calendar.MailDate
import IsolatedSite.Proofs.DayNumbers
import IsolatedSite.Proofs.PlainText
import Mathlib.Tactic.IntervalCases

namespace IsolatedSite

/-! ## 1. Numbers -/

namespace Decimal

theorem ofDigitChars_padded (width n : Nat) : Nat.ofDigitChars 10 (padded width n) 0 = n := by
  rw [padded, Nat.ofDigitChars_append, Nat.ofDigitChars_replicate_zero, Nat.mul_zero]
  exact Nat.ofDigitChars_ten_toDigits

theorem isDigit_of_mem_padded {width n : Nat} {c : Char} (h : c ∈ padded width n) :
    c.isDigit = true := by
  rcases List.mem_append.mp h with h | h
  · rw [(List.mem_replicate.mp h).2]
    rfl
  · exact isDigit_of_mem_ofNat h

theorem length_padded {width n : Nat} (hwidth : 0 < width) (h : n < 10 ^ width) :
    (padded width n).length = width := by
  have hle : (ofNat n).length ≤ width := (Nat.length_toDigits_le_iff (by decide) hwidth).mpr h
  rw [padded, List.length_append, List.length_replicate]
  omega

theorem isFlush_padded (width n : Nat) (rest : Text) : Text.IsFlush (padded width n ++ rest) := by
  refine Text.isFlush_of_isDigit ?_ (fun _ => isDigit_of_mem_padded) rest
  rw [padded]
  exact List.append_ne_nil_of_right_ne_nil _ Nat.toDigits_ne_nil

end Decimal

namespace Calendar.MailDate

/-- Digits are taken up to the most that may be, or up to something else. -/
theorem takeWhile_take_append {most : Nat} {digits rest : Text}
    (hdigits : ∀ c ∈ digits, c.isDigit = true) (hmost : digits.length ≤ most)
    (hrest : digits.length = most ∨ ∀ c ∈ rest.head?, c.isDigit = false) :
    ((digits ++ rest).take most).takeWhile Char.isDigit = digits := by
  have hstop : (rest.take (most - digits.length)).takeWhile Char.isDigit = [] := by
    rcases hrest with hlength | hrest
    · simp [hlength]
    · cases rest with
      | nil => simp
      | cons c rest => cases most - digits.length <;> simp [hrest c rfl]
  rw [List.take_append, List.take_of_length_le hmost, List.takeWhile_append_of_pos hdigits, hstop,
    List.append_nil]

theorem number_append {least most : Nat} {digits rest : Text}
    (hdigits : ∀ c ∈ digits, c.isDigit = true) (hleast : least ≤ digits.length)
    (hmost : digits.length ≤ most)
    (hrest : digits.length = most ∨ ∀ c ∈ rest.head?, c.isDigit = false) :
    number least most (digits ++ rest) = some (Nat.ofDigitChars 10 digits 0, rest) := by
  simp only [number, takeWhile_take_append hdigits hmost hrest, if_pos hleast, List.drop_left]

/-- A number that is padded to the full width is read. -/
theorem number_padded {least width n : Nat} (hwidth : 0 < width) (hleast : least ≤ width)
    (hn : n < 10 ^ width) (rest : Text) :
    number least width (Decimal.padded width n ++ rest) = some (n, rest) := by
  have hlength := Decimal.length_padded hwidth hn
  rw [number_append (fun _ => Decimal.isDigit_of_mem_padded) (by omega) (by omega) (Or.inl hlength),
    Decimal.ofDigitChars_padded]

/-! ## 2. The parts of a date -/

theorem trimStart_space {t : Text} (h : t.IsFlush) : Text.trimStart (' ' :: t) = t := by
  rw [Text.trimStart, List.dropWhile_cons_of_pos (by decide)]
  exact h.trimStart_eq

theorem blanks_space {t : Text} (h : t.IsFlush) : blanks (' ' :: t) = some ((), t) := by
  rw [blanks, if_pos (by decide), h.trimStart_eq]

theorem weekday?_weekdayName {w : Nat} (hw : w < 7) (rest : Text) :
    weekday? (weekdayName w ++ ',' :: rest) = some (some w, rest) := by
  interval_cases w <;> rfl

theorem isFlush_weekdayName {w : Nat} (hw : w < 7) (rest : Text) :
    Text.IsFlush (weekdayName w ++ rest) := by
  interval_cases w <;> exact Text.isFlush_cons (by decide) _

theorem name_monthName {m : Nat} (hlow : 1 ≤ m) (hhigh : m ≤ 12) (rest : Text) :
    name monthNames (monthName m ++ rest) = some (m - 1, rest) := by
  interval_cases m <;> rfl

theorem isFlush_monthName {m : Nat} (hlow : 1 ≤ m) (hhigh : m ≤ 12) (rest : Text) :
    Text.IsFlush (monthName m ++ rest) := by
  interval_cases m <;> exact Text.isFlush_cons (by decide) _

theorem yearText_eq {y : Int} (hlow : 0 ≤ y) (hhigh : y ≤ 9999) :
    yearText y = Decimal.padded 4 y.toNat := by
  rw [yearText, if_neg (by omega), if_neg (by omega), List.nil_append]
  congr 1
  omega

/-- Four digits are a year as it is. -/
theorem year_yearText {y : Int} (hlow : 0 ≤ y) (hhigh : y ≤ 9999) (rest : Text) :
    year (yearText y ++ ' ' :: rest) = some (y.toNat, ' ' :: rest) := by
  have hlength : (Decimal.padded 4 y.toNat).length = 4 :=
    Decimal.length_padded (by decide) (by omega)
  have hend : ∀ c ∈ (' ' :: rest).head?, c.isDigit = false := by
    simp
  rw [yearText_eq hlow hhigh]
  simp only [year]
  rw [number_append (fun _ => Decimal.isDigit_of_mem_padded) (by omega) (by simp) (Or.inr hend),
    Decimal.ofDigitChars_padded]
  simp [hlength, fullYear]

theorem secondOfDay_lt (t : Instant) : t.secondOfDay < 86400 := by
  unfold Instant.secondOfDay secondsPerDay
  omega

theorem trimStart_colon (t : Text) : Text.trimStart (':' :: t) = ':' :: t :=
  (Text.isFlush_cons (by decide) t).trimStart_eq

/-- **The clock reads back.** -/
theorem clock_clockText {t : Instant} (h : t.nanos < 1000000000) (rest : Text) :
    clock (t.clockText ++ rest) =
      some ((t.secondOfDay / 3600, t.secondOfDay / 60 % 60, t.secondOfDay % 60), rest) := by
  have hday := secondOfDay_lt t
  have hwhole : t.nanos / 1000000000 = 0 := by omega
  have hchar : ∀ s : Text, char ':' (':' :: s) = some ((), s) := fun _ => rfl
  have hhours (s : Text) : number 2 2 (Decimal.padded 2 (t.secondOfDay / 3600) ++ s) =
      some (t.secondOfDay / 3600, s) := number_padded (by decide) le_rfl (by omega) s
  have hminutes (s : Text) : number 2 2 (Decimal.padded 2 (t.secondOfDay / 60 % 60) ++ s) =
      some (t.secondOfDay / 60 % 60, s) := number_padded (by decide) le_rfl (by omega) s
  have hseconds (s : Text) : number 2 2 (Decimal.padded 2 (t.secondOfDay % 60) ++ s) =
      some (t.secondOfDay % 60, s) := number_padded (by decide) le_rfl (by omega) s
  simp only [Instant.clockText, clock, seconds, hwhole, Nat.add_zero, List.append_assoc,
    List.cons_append, Option.bind_eq_bind, Option.bind_some, hhours, trimStart_colon, hchar,
    (Decimal.isFlush_padded _ _ _).trimStart_eq, hminutes, hseconds]
  rfl

/-! ## 3. The whole -/

end MailDate

/-- An instant of a year that is written with four digits, and no leap second. -/
structure Instant.IsOrdinary (t : Instant) : Prop where
  nanos_lt : t.nanos < 1000000000
  year_nonneg : 0 ≤ t.date.year
  year_le : t.date.year ≤ 9999

theorem Instant.IsOrdinary.isKnown {t : Instant} (h : t.IsOrdinary) : t.isKnown = true := by
  have hlow := h.year_nonneg
  have hhigh := h.year_le
  simp only [Instant.isKnown, isKnownYear, Bool.and_eq_true, decide_eq_true_eq]
  unfold firstYear lastYear
  omega

theorem Instant.IsOrdinary.httpDate?_eq {t : Instant} (h : t.IsOrdinary) :
    httpDate? t = some (httpDateText t) := if_pos h.isKnown

namespace MailDate

/-- The parts of a header date. -/
def partsOf (t : Instant) : Parts where
  weekday := some (weekday t.dayNumber)
  date := t.date
  clock := (t.secondOfDay / 3600, t.secondOfDay / 60 % 60, t.secondOfDay % 60)
  offset := 0

theorem httpDateText_eq (t : Instant) :
    httpDateText t = weekdayName (weekday t.dayNumber) ++ ',' :: ' ' ::
      (Decimal.padded 2 t.date.day ++ ' ' :: (monthName t.date.month ++ ' ' ::
        (yearText t.date.year ++ ' ' :: (t.clockText ++ ' ' :: "GMT".toList)))) := by
  simp [httpDateText]

theorem trim_httpDateText (t : Instant) : Text.trim (httpDateText t) = httpDateText t := by
  refine Text.IsFlush.trim_eq ?_ ?_
  · rw [httpDateText_eq]
    exact isFlush_weekdayName (weekday_lt _) _
  · rw [httpDateText, List.reverse_append]
    exact Text.isFlush_cons (by decide) _

theorem parts?_httpDateText {t : Instant} (h : t.IsOrdinary) :
    parts? (httpDateText t) = some (partsOf t) := by
  obtain ⟨hlow, hhigh, hday⟩ : 1 ≤ t.date.month ∧ t.date.month ≤ 12 ∧ t.date.day ≤ 31 :=
    ofDayNumber_bounds t.dayNumber
  have hdigits (rest : Text) : number 1 2 (Decimal.padded 2 t.date.day ++ rest) =
      some (t.date.day, rest) :=
    number_padded (by decide) (by decide) (Nat.lt_of_le_of_lt hday (by decide)) rest
  have hclock : Text.IsFlush (t.clockText ++ ' ' :: "GMT".toList) := by
    simp only [Instant.clockText, List.append_assoc]
    exact Decimal.isFlush_padded _ _ _
  have hyear : Text.IsFlush
      (yearText t.date.year ++ ' ' :: (t.clockText ++ ' ' :: "GMT".toList)) := by
    rw [yearText_eq h.year_nonneg h.year_le]
    exact Decimal.isFlush_padded _ _ _
  have hgap : blanks (' ' :: "GMT".toList) = some ((), "GMT".toList) := rfl
  have hzone : zone "GMT".toList = some (0, []) := rfl
  have hmonth : t.date.month - 1 + 1 = t.date.month := Nat.sub_add_cancel hlow
  have hwhole : (t.date.year.toNat : Int) = t.date.year := Int.toNat_of_nonneg h.year_nonneg
  rw [httpDateText_eq]
  simp only [parts?, Option.bind_eq_bind, Option.bind_some,
    (isFlush_weekdayName (weekday_lt _) _).trimStart_eq, weekday?_weekdayName (weekday_lt _),
    trimStart_space (Decimal.isFlush_padded _ _ _), hdigits,
    blanks_space (isFlush_monthName hlow hhigh _), name_monthName hlow hhigh,
    blanks_space hyear, year_yearText h.year_nonneg h.year_le,
    blanks_space hclock, clock_clockText h.nanos_lt, hgap, hzone, hmonth, hwhole]
  rfl

/-- The clock counts the seconds of the day, and the day is the date's own. -/
theorem instant?_partsOf {t : Instant} (h : t.IsOrdinary) :
    (partsOf t).instant? = some t.seconds := by
  have hnumber : t.date.dayNumber = t.dayNumber := dayNumber_ofDayNumber t.dayNumber
  have hexists : t.date.exists? = true := exists?_ofDayNumber t.dayNumber
  have hyear : isKnownYear t.date.year = true := h.isKnown
  have hknown : (Instant.mk t.seconds 0).isKnown = true := h.isKnown
  have hday := secondOfDay_lt t
  have hseconds : t.dayNumber * secondsPerDay + ((t.secondOfDay / 3600 * 3600 +
      t.secondOfDay / 60 % 60 * 60 + min (t.secondOfDay % 60) 59 : Nat) : Int) - 0 = t.seconds := by
    unfold Instant.secondOfDay Instant.dayNumber secondsPerDay at *
    omega
  simp only [Parts.instant?, partsOf, hnumber, hseconds, hyear, hknown, hexists, Option.all_some,
    decide_true]
  exact if_pos ⟨trivial, trivial, trivial, by omega, by omega, by omega, trivial⟩

/-- **A header date reads back** as the second that it was written for. -/
theorem read?_httpDateText {t : Instant} (h : t.IsOrdinary) :
    read? (httpDateText t) = some t.seconds := by
  rw [read?, trim_httpDateText, parts?_httpDateText h, Option.bind_some, instant?_partsOf h]

end Calendar.MailDate

end IsolatedSite
