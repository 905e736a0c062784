import Verdict.Proofs.Calendar.Ordinal
/-!
# Weeks

A week belongs to the year that holds its Thursday, and its number says which of the year's
Thursdays that is. So the days before a year's first Thursday may belong to the last week of the
year before, and those behind its last Thursday to the first week of the next one. The calendar
begins with a Monday and its last day is a Friday: no week of a date leaves it
(`weekYear_mem`), every date is found again from its week and weekday (`ofWeek?_week`), and what is
found has the week and the weekday that were asked for (`week_of_ofWeek?`).
-/

namespace Verdict.Date

/-! ## The week of a date -/

/-- The ordinal of the Thursday in the week of a date. -/
def thursday (d : Date) : Nat := d.ordinal + 4 - d.weekday

/-- The year that holds the Thursday: the date's own or one of its neighbours. -/
def weekYear (d : Date) : Nat :=
  if d.thursday ≤ daysBeforeYear d.year then d.year - 1
  else if d.thursday ≤ daysBeforeYear (d.year + 1) then d.year
  else d.year + 1

/-- The number of the Thursday among those of its year, the first being 1. -/
def weekNumber (d : Date) : Nat := (d.thursday - daysBeforeYear d.weekYear + 6) / 7

/-! ## Thursdays -/

/-- The Thursday of a week and a date in it are apart by the weekday of the date. -/
theorem ordinal_add_four (d : Date) : d.ordinal + 4 = d.thursday + d.weekday := by
  have hweekday : d.weekday = (d.ordinal + 6) % 7 + 1 := rfl
  have hpos := d.ordinal_mem.1
  unfold thursday
  omega

theorem weekdayOfOrdinal_thursday (d : Date) : weekdayOfOrdinal d.thursday = 4 := by
  have hweekday : d.weekday = (d.ordinal + 6) % 7 + 1 := rfl
  have hordinal := d.ordinal_add_four
  unfold weekdayOfOrdinal
  omega

/-- The first day of the calendar is a Monday. -/
theorem thursday_pos (d : Date) : 0 < d.thursday := by
  have hthursday := d.weekdayOfOrdinal_thursday
  unfold weekdayOfOrdinal at hthursday
  omega

/-- The last day of the calendar is a Friday. -/
theorem thursday_le (d : Date) : d.thursday ≤ daysBeforeYear (lastYear + 1) := by
  have hlast : daysBeforeYear (lastYear + 1) = 3652059 := rfl
  have hyears : daysBeforeYear (d.year + 1) ≤ daysBeforeYear (lastYear + 1) :=
    daysBeforeYear_mono (Nat.succ_le_succ d.year_mem.2)
  have hthursday := d.weekdayOfOrdinal_thursday
  have hordinal := d.ordinal_add_four
  have hweekday := d.weekday_mem
  have hmem := d.ordinal_mem
  unfold weekdayOfOrdinal at hthursday
  omega

/-- The weeks of the calendar lie in its years. -/
theorem weekYear_mem (d : Date) : 1 ≤ d.weekYear ∧ d.weekYear ≤ lastYear := by
  have hyear := d.year_mem
  unfold weekYear
  split
  · next hbefore =>
    -- no Thursday lies before the first year
    have hfirst : d.year ≠ 1 := by
      intro hone
      rw [hone] at hbefore
      exact absurd d.thursday_pos (Nat.not_lt.2 hbefore)
    omega
  · split
    · exact hyear
    · next hafter =>
      have hlast : d.year ≠ lastYear := by
        intro heq
        rw [heq] at hafter
        exact hafter d.thursday_le
      omega

/-- The year of a week holds its Thursday. -/
theorem thursday_mem (d : Date) : daysBeforeYear d.weekYear < d.thursday ∧
    d.thursday ≤ daysBeforeYear (d.weekYear + 1) := by
  have hordinal := d.ordinal_add_four
  have hweekday := d.weekday_mem
  have hmem := d.ordinal_mem
  have hweekYear := d.weekYear_mem
  unfold weekYear at hweekYear ⊢
  split
  · next hbefore =>
    rw [if_pos hbefore] at hweekYear
    have hsucc : d.year - 1 + 1 = d.year := by omega
    have hlength := daysBeforeYear_succ hweekYear.1
    rw [hsucc] at hlength ⊢
    exact ⟨by split at hlength <;> omega, hbefore⟩
  · split
    · next hnotBefore hnotAfter => exact ⟨Nat.lt_of_not_le hnotBefore, hnotAfter⟩
    · next hafter =>
      have hlength := daysBeforeYear_succ (Nat.le_add_left 1 d.year)
      exact ⟨Nat.lt_of_not_le hafter, by split at hlength <;> omega⟩

/-! ## Numbers of weeks -/

/-- The week of a date is one of its year's: there is a fifty-third one where a Thursday is left
over behind fifty-two weeks. -/
theorem weekNumber_mem (d : Date) : 1 ≤ d.weekNumber ∧ d.weekNumber ≤ weeksInYear d.weekYear := by
  have hmem := d.thursday_mem
  have hthursday := d.weekdayOfOrdinal_thursday
  have hlength := daysBeforeYear_succ d.weekYear_mem.1
  unfold weekdayOfOrdinal at hthursday
  unfold weekNumber weeksInYear weekdayOfOrdinal
  dsimp only
  refine ⟨by omega, ?_⟩
  -- the year of the Thursday has a fifty-third week just if it has a fifty-third Thursday
  cases hleap : isLeap d.weekYear with
  | true =>
    rw [hleap, if_pos rfl] at hlength
    split
    · omega
    · next hshort =>
      simp only [and_true] at hshort
      omega
  | false =>
    rw [hleap, if_neg Bool.false_ne_true] at hlength
    split
    · omega
    · next hshort =>
      simp only [Bool.false_eq_true, and_false, or_false] at hshort
      omega

theorem weekNumber_le (d : Date) : d.weekNumber ≤ 53 := by
  have hmem := d.weekNumber_mem.2
  unfold weeksInYear at hmem
  dsimp only at hmem
  split at hmem <;> omega

/-- Counted from the Monday of a year's first week, the days of a week come one after the other. -/
theorem ordinal_eq_firstMonday (d : Date) :
    firstMonday d.weekYear + 7 * (d.weekNumber - 1) + (d.weekday - 1) = d.ordinal := by
  have hmem := d.thursday_mem
  have hthursday := d.weekdayOfOrdinal_thursday
  have hordinal := d.ordinal_add_four
  have hweekday := d.weekday_mem
  unfold weekdayOfOrdinal at hthursday
  unfold weekNumber firstMonday weekdayOfOrdinal
  dsimp only
  split <;> omega

/-- **A date is the one with its week and weekday.** -/
theorem ofWeek?_week (d : Date) : ofWeek? d.weekYear d.weekNumber d.weekday = some d := by
  rw [ofWeek?, if_pos ⟨d.weekYear_mem, d.weekNumber_mem, d.weekday_mem⟩, d.ordinal_eq_firstMonday,
    ofOrdinal?_ordinal]

/-- The weeks of a year begin on Mondays, and the first one is that of the year's first Thursday. -/
theorem firstMonday_add_three (year : Nat) :
    weekdayOfOrdinal (firstMonday year + 3) = 4 ∧ daysBeforeYear year < firstMonday year + 3 ∧
      firstMonday year + 3 ≤ daysBeforeYear year + 7 := by
  unfold firstMonday weekdayOfOrdinal
  dsimp only
  split <;> omega

/-- The Thursday of a week of a year lies in the year. -/
theorem thursday_of_week_le {year week : Nat} (hyear : 1 ≤ year) (hweek : week ≤ weeksInYear year) :
    firstMonday year + 3 + 7 * (week - 1) ≤ daysBeforeYear (year + 1) := by
  have hlength := daysBeforeYear_succ hyear
  obtain ⟨hmonday, hfirst⟩ := firstMonday_add_three year
  unfold weeksInYear at hweek
  unfold weekdayOfOrdinal at hweek hmonday
  dsimp only at hweek
  split at hweek
  · next hlong =>
    cases hleap : isLeap year with
    | true =>
      rw [hleap, if_pos rfl] at hlength
      omega
    | false =>
      simp only [hleap, Bool.false_eq_true, and_false, or_false] at hlong
      rw [hleap, if_neg Bool.false_ne_true] at hlength
      omega
  · split at hlength <;> omega

/-- **The date with a week and a weekday has them.** -/
theorem week_of_ofWeek? {year week weekday : Nat} {d : Date}
    (h : ofWeek? year week weekday = some d) :
    d.weekYear = year ∧ d.weekNumber = week ∧ d.weekday = weekday := by
  unfold ofWeek? at h
  split at h
  · next hparts =>
    obtain ⟨hyear, hweek, hweekday⟩ := hparts
    obtain ⟨hmonday, hfirst⟩ := firstMonday_add_three year
    have hlast := thursday_of_week_le hyear.1 hweek.2
    have hordinal := ordinal_of_ofOrdinal? h
    have hthursday := d.ordinal_add_four
    have hsame : d.weekday = weekday := by
      have hcounted : d.weekday = (d.ordinal + 6) % 7 + 1 := rfl
      unfold weekdayOfOrdinal at hmonday
      omega
    -- both years hold the Thursday
    have hyears : d.weekYear = year :=
      (yearOfOrdinal_eq d.weekYear_mem.1 d.thursday_mem.1 d.thursday_mem.2).symm.trans
        (yearOfOrdinal_eq hyear.1 (by omega) (by omega))
    refine ⟨hyears, ?_, hsame⟩
    unfold weekNumber
    rw [hyears]
    omega
  · cases h

end Verdict.Date
