import Mathlib.Order.Monotone.Basic
import Verdict.Calendar.Date
/-!
# Dates and their ordinals

Days are counted from the first day of the calendar, and a date is found again from its number. The
year is estimated by the mean length of a year, which is off by one at most, so one comparison on
either side settles it (`yearOfOrdinal_eq`); the month is found by taking off the months before it
one after the other (`monthAndDay_range`). Together they give the date back
(`ofOrdinal?_ordinal`), and a date that is found has the number that was asked for
(`ordinal_of_ofOrdinal?`).
-/

namespace Verdict.Date

variable {year month day n : Nat}

/-! ## Years -/

theorem isLeap_iff : isLeap year = true ↔ 4 ∣ year ∧ (¬ 100 ∣ year ∨ 400 ∣ year) := by
  simp [isLeap, Nat.dvd_iff_mod_eq_zero]

/-- A year has 366 days if it is leap, and 365 otherwise. -/
theorem daysBeforeYear_succ (h : 1 ≤ year) :
    daysBeforeYear (year + 1) = daysBeforeYear year + if isLeap year then 366 else 365 := by
  obtain ⟨y, rfl⟩ : ∃ y, year = y + 1 := ⟨year - 1, by omega⟩
  simp only [daysBeforeYear, Nat.add_sub_cancel, isLeap_iff, Nat.succ_div]
  -- the rules for fourth years, for centuries and for fourth centuries, one inside the other
  by_cases hfourth : 4 ∣ y + 1
  · by_cases hcentury : 100 ∣ y + 1
    · by_cases hcycle : 400 ∣ y + 1
      · simp only [hfourth, hcentury, hcycle, if_true, not_true, or_true, and_self]
        omega
      · simp only [hfourth, hcentury, hcycle, if_true, if_false, not_true, or_self, and_false]
        omega
    · have hcycle : ¬ 400 ∣ y + 1 := fun h => hcentury (Nat.dvd_trans (by decide) h)
      simp only [hfourth, hcentury, hcycle, if_true, if_false, not_false_iff, true_or, and_self]
      omega
  · have hcentury : ¬ 100 ∣ y + 1 := fun h => hfourth (Nat.dvd_trans (by decide) h)
    have hcycle : ¬ 400 ∣ y + 1 := fun h => hfourth (Nat.dvd_trans (by decide) h)
    simp only [hfourth, hcentury, hcycle, if_false, false_and]
    omega

theorem daysBeforeYear_mono : Monotone daysBeforeYear :=
  monotone_nat_of_le_succ fun year => by
    simp only [daysBeforeYear]
    omega

/-- The days of a year are those whose ordinals lie between its start and the next one's. -/
theorem yearOfOrdinal_eq (h : 1 ≤ year) (hafter : daysBeforeYear year < n)
    (hbefore : n ≤ daysBeforeYear (year + 1)) : yearOfOrdinal n = year := by
  -- four hundred years have 146097 days
  have hestimate : year - 1 ≤ (n - 1) * 400 / 146097 + 1 ∧ (n - 1) * 400 / 146097 ≤ year := by
    simp only [daysBeforeYear] at hafter hbefore
    omega
  obtain hless | hsame | hmore : (n - 1) * 400 / 146097 + 1 = year - 1 ∨
      (n - 1) * 400 / 146097 + 1 = year ∨ (n - 1) * 400 / 146097 + 1 = year + 1 := by omega
  · have hnext : daysBeforeYear (year - 1) ≤ daysBeforeYear year :=
      daysBeforeYear_mono (Nat.sub_le year 1)
    have hsucc : year - 1 + 1 = year := by omega
    simp only [yearOfOrdinal, hless, hsucc]
    rw [if_neg (by omega), if_pos hafter]
  · simp only [yearOfOrdinal, hsame]
    rw [if_neg (by omega), if_neg (by omega)]
  · simp only [yearOfOrdinal, hmore]
    rw [if_pos hbefore, Nat.add_sub_cancel]

/-! ## Months -/

theorem daysBeforeMonth_succ (year month : Nat) :
    daysBeforeMonth year (month + 1) = daysBeforeMonth year month + daysInMonth year month := rfl

theorem daysBeforeMonth_mono (year : Nat) : Monotone (daysBeforeMonth year) :=
  monotone_nat_of_le_succ fun month => by
    rw [daysBeforeMonth_succ]
    exact Nat.le_add_right _ _

/-- The months of a year have all of its days. -/
theorem daysBeforeMonth_thirteen (year : Nat) :
    daysBeforeMonth year 13 = if isLeap year then 366 else 365 := by
  cases hleap : isLeap year <;> simp [daysBeforeMonth, daysInMonth, hleap]

theorem daysInMonth_le (year month : Nat) : daysInMonth year month ≤ 31 := by
  have hfebruary : (if isLeap year then 29 else 28) ≤ 31 := by split <;> decide
  unfold daysInMonth
  split
  all_goals first | exact hfebruary | decide

/-- Counting from the start of a month on, a day of that month or of a later one is found. -/
theorem monthAndDay_range (hday : 1 ≤ day ∧ day ≤ daysInMonth year month) {first count : Nat}
    (hfirst : first ≤ month) (hcount : month < first + count) :
    monthAndDay year (List.range' first count)
        (daysBeforeMonth year month + day - daysBeforeMonth year first) = (month, day) := by
  -- the month that is counted from moves on with the list
  induction count generalizing first with
  | zero => omega
  | succ count ih =>
    rw [List.range'_succ, monthAndDay]
    rcases Nat.eq_or_lt_of_le hfirst with rfl | hlater
    · rw [Nat.add_sub_cancel_left, if_pos hday.2]
    · have hpassed : daysBeforeMonth year first + daysInMonth year first ≤
          daysBeforeMonth year month := daysBeforeMonth_mono year hlater
      have hrest := ih hlater (by omega)
      rw [daysBeforeMonth_succ] at hrest
      rw [if_neg (by omega), Nat.sub_sub, hrest]

/-! ## Dates -/

/-- A date lies in its year. -/
theorem ordinal_mem (d : Date) :
    daysBeforeYear d.year < d.ordinal ∧ d.ordinal ≤ daysBeforeYear (d.year + 1) := by
  have hmonth : daysBeforeMonth d.year (d.month + 1) ≤ daysBeforeMonth d.year 13 :=
    daysBeforeMonth_mono d.year (Nat.succ_le_succ d.month_mem.2)
  rw [daysBeforeMonth_succ, daysBeforeMonth_thirteen] at hmonth
  have hday := d.day_mem
  rw [daysBeforeYear_succ d.year_mem.1, ordinal]
  omega

/-- **A date is the one with its ordinal.** -/
theorem ofOrdinal?_ordinal (d : Date) : ofOrdinal? d.ordinal = some d := by
  obtain ⟨hafter, hbefore⟩ := d.ordinal_mem
  have hyear := yearOfOrdinal_eq d.year_mem.1 hafter hbefore
  have hstart : daysBeforeMonth d.year 1 = 0 := rfl
  have hparts : monthAndDay d.year (List.range' 1 12) (d.ordinal - daysBeforeYear d.year) =
      (d.month, d.day) := by
    have hlast : d.month < 1 + 12 := Nat.lt_of_le_of_lt d.month_mem.2 (by decide)
    rw [ordinal, Nat.add_assoc, Nat.add_sub_cancel_left,
      ← monthAndDay_range d.day_mem d.month_mem.1 hlast, hstart, Nat.sub_zero]
  have hmonths : [1, 2, 3, 4, 5, 6, 7, 8, 9, 10, 11, 12] = List.range' 1 12 := rfl
  rw [ofOrdinal?, if_neg (by omega)]
  simp only [hyear, hmonths, hparts, make_parts, Except.toOption]

/-- A date is made of the parts that it has. -/
theorem parts_of_make {d : Date} (h : (make year month day).toOption = some d) :
    d.year = year ∧ d.month = month ∧ d.day = day := by
  unfold make at h
  repeat' split at h
  all_goals cases h
  exact ⟨rfl, rfl, rfl⟩

/-- The month that is found and the day in it lie as far from the start as was counted. -/
theorem daysBeforeMonth_of_monthAndDay {first count : Nat}
    (h : monthAndDay year (List.range' first count) n = (month, day)) (hmonth : month ≠ 0) :
    daysBeforeMonth year month + day = daysBeforeMonth year first + n := by
  induction count generalizing first n with
  | zero =>
    cases h
    exact absurd rfl hmonth
  | succ count ih =>
    rw [List.range'_succ, monthAndDay] at h
    split at h
    · cases h
      rfl
    · have hrest := ih h
      rw [daysBeforeMonth_succ] at hrest
      omega

/-- **The date with an ordinal has that ordinal.** -/
theorem ordinal_of_ofOrdinal? {d : Date} (h : ofOrdinal? n = some d) : d.ordinal = n := by
  unfold ofOrdinal? at h
  split at h
  · cases h
  · obtain ⟨hyear, hmonth, hday⟩ := parts_of_make h
    have hstart : daysBeforeMonth (yearOfOrdinal n) 1 = 0 := rfl
    have hfound : monthAndDay (yearOfOrdinal n) (List.range' 1 12)
        (n - daysBeforeYear (yearOfOrdinal n)) = (d.month, d.day) := by
      rw [hmonth, hday]
      rfl
    have hcounted := daysBeforeMonth_of_monthAndDay hfound (Nat.ne_of_gt d.month_mem.1)
    have hpos := d.day_mem.1
    rw [ordinal, hyear]
    omega

end Verdict.Date
