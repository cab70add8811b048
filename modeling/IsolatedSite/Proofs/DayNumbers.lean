/-
# Every number is the number of a day

`Date.ofDayNumber` gives a date for each number, and that date exists (`exists?_ofDayNumber`) and
has the number (`dayNumber_ofDayNumber`).

Both functions count in years that begin in March, so the proofs do: `MarchDate` is a day in a
cycle of 400 such years, and the two directions are compared there.  The arithmetic that matters
is the year within the cycle, which the closed formula finds (`yearOfCycle_spec`): a year has a
366th day only where February has a 29th.
-/
import IsolatedSite.Calendar.Date
import Mathlib.Data.List.Basic

namespace IsolatedSite.Calendar

/-! ## 1. The years of a cycle -/

/-- The days of a cycle. -/
def daysPerCycle : Int := 146097

/-- The days of a cycle before a year of it. -/
def daysBeforeYear (y : Int) : Int := 365 * y + y / 4 - y / 100

/-- The year of a cycle that a day of the cycle belongs to. -/
def yearOfCycle (d : Int) : Int := (d - d / 1460 + d / 36524 - d / 146096) / 365

theorem isLeap_iff {y : Int} : isLeap y = true ↔ y % 4 = 0 ∧ (y % 100 ≠ 0 ∨ y % 400 = 0) := by
  simp [isLeap]

/-- A day of a cycle lies in a year of it, and is the 366th of that year only if the year ends in a
leap day. -/
structure LiesIn (d y : Int) : Prop where
  nonneg : 0 ≤ y
  lt : y < 400
  low : daysBeforeYear y ≤ d
  high : d ≤ daysBeforeYear y + 365
  leap : d = daysBeforeYear y + 365 → isLeap (y + 1) = true

/-- **The year is found.**  The last day of a cycle is the only one in a fifth century, and is left
to evaluation. -/
theorem yearOfCycle_spec {d : Int} (hlow : 0 ≤ d) (hhigh : d < daysPerCycle) :
    LiesIn d (yearOfCycle d) := by
  rw [daysPerCycle] at hhigh
  by_cases hlast : d = 146096
  · subst hlast
    exact ⟨by decide, by decide, by decide, by decide, by decide⟩
  obtain ⟨century, hcentury⟩ : ∃ c, d / 36524 = c := ⟨_, rfl⟩
  obtain ⟨four, hfour⟩ : ∃ f, d / 1460 = f := ⟨_, rfl⟩
  obtain ⟨y, hy⟩ : ∃ y, yearOfCycle d = y := ⟨_, rfl⟩
  have hyear : 365 * y ≤ d - four + century ∧ d - four + century ≤ 365 * y + 364 := by
    rw [yearOfCycle, hcentury, hfour] at hy
    omega
  have hcenturies : y / 100 = century := by omega
  have hfours : y / 4 ≤ four ∧ four ≤ y / 4 + 1 := by omega
  rw [hy]
  refine ⟨by omega, by omega, ?_, ?_, ?_⟩
  · rw [daysBeforeYear]
    omega
  · rw [daysBeforeYear]
    omega
  · rw [daysBeforeYear, isLeap_iff]
    intro hend
    have hnext : four = y / 4 + 1 := by omega
    have hthird : y % 4 = 3 := by omega
    omega

/-! ## 2. The months of a year -/

/-- The days before a month of a year, the months being counted from March. -/
def daysBeforeMonth (m : Int) : Int := (153 * m + 2) / 5

/-- The month that a day of a year belongs to, counted from March. -/
def monthFromMarch (d : Int) : Int := (5 * d + 2) / 153

/-- A day of a year lies in a month, which is short enough for it. -/
theorem monthFromMarch_spec {d : Int} (hlow : 0 ≤ d) (hhigh : d ≤ 365) :
    0 ≤ monthFromMarch d ∧ monthFromMarch d ≤ 11 ∧ daysBeforeMonth (monthFromMarch d) ≤ d ∧
      d < daysBeforeMonth (monthFromMarch d + 1) := by
  simp only [monthFromMarch, daysBeforeMonth]
  omega

/-! ## 3. Days as they are counted -/

/-- A day of a cycle of 400 years that begin in March. -/
structure MarchDate where
  cycle : Int
  year : Int
  month : Int
  day : Int

namespace MarchDate

/-- The number of a day. -/
def number (c : MarchDate) : Int :=
  c.cycle * daysPerCycle + daysBeforeYear c.year + daysBeforeMonth c.month + c.day - 1 - 719468

/-- The date in the calendar. -/
def date (c : MarchDate) : Date :=
  let month := if c.month < 10 then c.month + 3 else c.month - 9
  let year := c.year + c.cycle * 400
  ⟨if month ≤ 2 then year + 1 else year, month.toNat, c.day.toNat⟩

/-- The day with a number. -/
def ofNumber (n : Int) : MarchDate :=
  let z := n + 719468
  let dayOfCycle := z - z / daysPerCycle * daysPerCycle
  let dayOfYear := dayOfCycle - daysBeforeYear (yearOfCycle dayOfCycle)
  ⟨z / daysPerCycle, yearOfCycle dayOfCycle, monthFromMarch dayOfYear,
    dayOfYear - daysBeforeMonth (monthFromMarch dayOfYear) + 1⟩

/-- The day is one of its month, and the month one of its year. -/
structure IsProper (c : MarchDate) : Prop where
  year : 0 ≤ c.year ∧ c.year < 400
  month : 0 ≤ c.month ∧ c.month ≤ 11
  day : 1 ≤ c.day ∧ daysBeforeMonth c.month + c.day ≤ daysBeforeMonth (c.month + 1)
  last : daysBeforeMonth c.month + c.day ≤ 366
  leap : daysBeforeMonth c.month + c.day = 366 → isLeap (c.year + 1) = true

theorem isProper_ofNumber (n : Int) : (ofNumber n).IsProper := by
  obtain ⟨d, hd⟩ : ∃ d, n + 719468 - (n + 719468) / daysPerCycle * daysPerCycle = d := ⟨_, rfl⟩
  have hrange : 0 ≤ d ∧ d < daysPerCycle := by
    simp only [daysPerCycle] at hd ⊢
    omega
  obtain ⟨hnonneg, hlt, hlow, hhigh, hleap⟩ := yearOfCycle_spec hrange.1 hrange.2
  obtain ⟨e, he⟩ : ∃ e, d - daysBeforeYear (yearOfCycle d) = e := ⟨_, rfl⟩
  obtain ⟨hmonth, hmonthLe, hday, hdayLt⟩ :=
    monthFromMarch_spec (d := e) (by omega) (by omega)
  simp only [ofNumber, hd, he]
  constructor <;> dsimp only
  · exact ⟨hnonneg, hlt⟩
  · exact ⟨hmonth, hmonthLe⟩
  · omega
  · omega
  · exact fun hend => hleap (by omega)

theorem number_ofNumber (n : Int) : (ofNumber n).number = n := by
  simp only [number, ofNumber]
  omega

theorem dayNumber_date {c : MarchDate} (h : c.IsProper) : c.date.dayNumber = c.number := by
  obtain ⟨hyear, hmonth, hday, -, -⟩ := h
  simp only [Date.dayNumber, date, number, daysBeforeYear, daysBeforeMonth, daysPerCycle]
  by_cases hearly : c.month < 10
  · simp only [hearly, if_true]
    rw [if_neg (by omega), if_neg (by omega), if_neg (by omega)]
    omega
  · simp only [hearly, if_false]
    rw [if_pos (by omega), if_pos (by omega), if_pos (by omega)]
    omega

/-- Leap years come back with every cycle. -/
theorem isLeap_add_cycles (y cycles : Int) : isLeap (y + cycles * 400) = isLeap y := by
  rw [Bool.eq_iff_iff, isLeap_iff, isLeap_iff]
  omega

/-- February is the last month, and the only one whose end the year decides. -/
theorem day_le_daysInMonth {c : MarchDate} (h : c.IsProper) :
    c.day ≤ daysInMonth c.date.year c.date.month := by
  obtain ⟨-, hmonth, hday, hlast, hleap⟩ := h
  simp only [daysBeforeMonth] at hday hlast hleap
  by_cases hearly : c.month < 10
  · have hm : c.date.month = (c.month + 3).toNat := by simp only [date, hearly, if_true]
    rw [daysInMonth, if_neg (by omega)]
    split <;> omega
  · have hm : c.date.month = (c.month - 9).toNat := by simp only [date, hearly, if_false]
    have hy : c.date.year = c.year + 1 + c.cycle * 400 := by
      simp only [date, hearly, if_false]
      rw [if_pos (by omega)]
      omega
    by_cases hfebruary : c.month = 11
    · rw [daysInMonth, if_pos (by omega), hy, isLeap_add_cycles]
      split
      · omega
      · have hshort := mt hleap (by assumption)
        omega
    · rw [daysInMonth, if_neg (by omega)]
      split <;> omega

theorem exists?_date {c : MarchDate} (h : c.IsProper) : c.date.exists? = true := by
  have hle := day_le_daysInMonth h
  obtain ⟨-, hmonth, hday, -, -⟩ := h
  have hm : 1 ≤ c.date.month ∧ c.date.month ≤ 12 := by
    simp only [date]
    split <;> omega
  have hd : c.date.day = c.day.toNat := rfl
  simp only [Date.exists?, Bool.and_eq_true, decide_eq_true_eq]
  omega

end MarchDate

/-! ## 4. Dates -/

theorem ofDayNumber_eq (n : Int) : Date.ofDayNumber n = (MarchDate.ofNumber n).date := rfl

/-- **The date of a numbered day has that number.** -/
theorem dayNumber_ofDayNumber (n : Int) : (Date.ofDayNumber n).dayNumber = n := by
  rw [ofDayNumber_eq, MarchDate.dayNumber_date (MarchDate.isProper_ofNumber n),
    MarchDate.number_ofNumber]

/-- **The date of a numbered day exists.** -/
theorem exists?_ofDayNumber (n : Int) : (Date.ofDayNumber n).exists? = true := by
  rw [ofDayNumber_eq]
  exact MarchDate.exists?_date (MarchDate.isProper_ofNumber n)

theorem daysInMonth_le (y : Int) (m : Nat) : daysInMonth y m ≤ 31 := by
  unfold daysInMonth
  split
  · split <;> omega
  · split <;> omega

/-- Months and days of dates are written with two digits. -/
theorem ofDayNumber_bounds (n : Int) : 1 ≤ (Date.ofDayNumber n).month ∧
    (Date.ofDayNumber n).month ≤ 12 ∧ (Date.ofDayNumber n).day ≤ 31 := by
  have h := exists?_ofDayNumber n
  simp only [Date.exists?, Bool.and_eq_true, decide_eq_true_eq] at h
  obtain ⟨⟨⟨hlow, hhigh⟩, -⟩, hday⟩ := h
  exact ⟨hlow, hhigh, Nat.le_trans hday (daysInMonth_le _ _)⟩

theorem weekday_lt (n : Int) : weekday n < 7 := by
  unfold weekday
  omega

end IsolatedSite.Calendar
