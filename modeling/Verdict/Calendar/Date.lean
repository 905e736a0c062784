import Verdict.Fault
/-!
# Dates

A date is a day of the Gregorian calendar in the years 1 to 9999. Its *ordinal* counts days from 1
January of year 1, which is day 1 and a Monday; weekdays are numbered from Monday, 1, to Sunday, 7.
A week belongs to the year that holds its Thursday.
-/

namespace Verdict

/-! ## Years and months -/

/-- Whether a year has 366 days. -/
def isLeap (year : Nat) : Bool :=
  year % 4 = 0 && (year % 100 ≠ 0 || year % 400 = 0)

/-- The number of days of a month, `0` where there is no such month. -/
def daysInMonth (year : Nat) : Nat → Nat
  | 1 | 3 | 5 | 7 | 8 | 10 | 12 => 31
  | 4 | 6 | 9 | 11 => 30
  | 2 => if isLeap year then 29 else 28
  | _ => 0

/-- The number of days before a year. -/
def daysBeforeYear (year : Nat) : Nat :=
  let y := year - 1
  365 * y + y / 4 - y / 100 + y / 400

/-- The number of days of a year before a month. -/
def daysBeforeMonth (year : Nat) : Nat → Nat
  | 0 => 0
  | month + 1 => daysBeforeMonth year month + daysInMonth year month

/-- The last year of the calendar. -/
abbrev lastYear : Nat := 9999

/-- Only the months 1 to 12 have days. -/
theorem month_of_daysInMonth_pos {year month : Nat} (h : 0 < daysInMonth year month) :
    1 ≤ month ∧ month ≤ 12 := by
  match month with
  | 0 => simp [daysInMonth] at h
  | 1 | 2 | 3 | 4 | 5 | 6 | 7 | 8 | 9 | 10 | 11 | 12 => decide
  | m + 13 => simp [daysInMonth] at h

/-- A date of the calendar. -/
structure Date where
  /-- The year. -/
  year : Nat
  /-- The month, January being 1. -/
  month : Nat
  /-- The day of the month. -/
  day : Nat
  /-- The year lies in the calendar. -/
  year_mem : 1 ≤ year ∧ year ≤ lastYear
  /-- The month has the day. -/
  day_mem : 1 ≤ day ∧ day ≤ daysInMonth year month
  deriving DecidableEq

namespace Date

theorem month_mem (d : Date) : 1 ≤ d.month ∧ d.month ≤ 12 :=
  month_of_daysInMonth_pos (Nat.lt_of_lt_of_le d.day_mem.1 d.day_mem.2)

/-- The date with these parts, or the fault of the first part that is out of range. -/
def make (year month day : Nat) : Except Fault Date :=
  if hy : 1 ≤ year ∧ year ≤ lastYear then
    if 1 ≤ month ∧ month ≤ 12 then
      if hd : 1 ≤ day ∧ day ≤ daysInMonth year month then .ok ⟨year, month, day, hy, hd⟩
      else .error .dayRange
    else .error .monthRange
  else .error (.yearRange year)

/-- A date is made from its own parts. -/
@[simp] theorem make_parts (d : Date) : make d.year d.month d.day = .ok d := by
  simp [make, d.year_mem, d.month_mem, d.day_mem]

/-- The first day of the calendar. -/
def first : Date := ⟨1, 1, 1, by decide, by decide⟩

instance : Inhabited Date := ⟨first⟩

/-! ## Ordinals and weekdays -/

/-- The number of the day, counted from the first day of the calendar. -/
def ordinal (d : Date) : Nat :=
  daysBeforeYear d.year + daysBeforeMonth d.year d.month + d.day

/-- The year that holds the day with an ordinal. The estimate by the mean length of a year is off by
one at most. -/
def yearOfOrdinal (n : Nat) : Nat :=
  let y := (n - 1) * 400 / 146097 + 1
  if n ≤ daysBeforeYear y then y - 1
  else if daysBeforeYear (y + 1) < n then y + 1
  else y

/-- The month and the day of the month of the `n`th day from the start of a month. -/
def monthAndDay (year : Nat) : List Nat → Nat → Nat × Nat
  | [], n => (0, n)
  | m :: ms, n =>
    if n ≤ daysInMonth year m then (m, n) else monthAndDay year ms (n - daysInMonth year m)

/-- The date with an ordinal, if the calendar has that day. -/
def ofOrdinal? (n : Nat) : Option Date :=
  if n = 0 then none
  else
    let year := yearOfOrdinal n
    let md := monthAndDay year [1, 2, 3, 4, 5, 6, 7, 8, 9, 10, 11, 12] (n - daysBeforeYear year)
    (make year md.1 md.2).toOption

/-- The number of a weekday from an ordinal. -/
def weekdayOfOrdinal (n : Nat) : Nat := (n + 6) % 7 + 1

/-- The weekday, Monday being 1 and Sunday 7. -/
def weekday (d : Date) : Nat := weekdayOfOrdinal d.ordinal

/-- A weekday lies between 1 and 7. -/
theorem weekday_mem (d : Date) : 1 ≤ d.weekday ∧ d.weekday ≤ 7 := by
  unfold weekday weekdayOfOrdinal
  omega

/-! ## Weeks -/

/-- The ordinal of the Monday of a year's first week. -/
def firstMonday (year : Nat) : Nat :=
  let n := daysBeforeYear year + 1
  let w := weekdayOfOrdinal n
  -- the first week is the one with the first Thursday
  if w ≤ 4 then n + 1 - w else n + 8 - w

/-- The number of weeks of a year: 53 when it starts on a Thursday, or on a Wednesday and is leap.
-/
def weeksInYear (year : Nat) : Nat :=
  let w := weekdayOfOrdinal (daysBeforeYear year + 1)
  if w = 4 ∨ (w = 3 ∧ isLeap year) then 53 else 52

/-- The date with a year, week and weekday, if the calendar has that day. -/
def ofWeek? (year week weekday : Nat) : Option Date :=
  if (1 ≤ year ∧ year ≤ lastYear) ∧ (1 ≤ week ∧ week ≤ weeksInYear year) ∧
      (1 ≤ weekday ∧ weekday ≤ 7) then
    ofOrdinal? (firstMonday year + 7 * (week - 1) + (weekday - 1))
  else none

/-! ## Text -/

/-- The last `width` decimal digits of a number. -/
def paddedDigits : Nat → Nat → List Char
  | 0, _ => []
  | width + 1, n => paddedDigits width (n / 10) ++ [Text.hexDigit (n % 10)]

/-- The characters of a date: four digits, two and two, with hyphens between them. -/
def chars (d : Date) : List Char :=
  paddedDigits 4 d.year ++ '-' :: paddedDigits 2 d.month ++ '-' :: paddedDigits 2 d.day

/-- The text of a date, `YYYY-MM-DD`. -/
def text (d : Date) : String := String.ofList d.chars

end Date

end Verdict
