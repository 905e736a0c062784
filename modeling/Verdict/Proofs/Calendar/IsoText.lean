import Mathlib.Algebra.Ring.Nat
import Verdict.Calendar.IsoText
import Verdict.Proofs.Calendar.Week
import Verdict.Text.Blank
/-!
# Reading spelled dates

A date is written by month and day or by week and weekday, with hyphens between the parts or without
them. Each of these spellings is read back as the date (`ofText?_spelled`): the parts are digits of
fixed width, which are read back one part after the other, and the parts make the date.
-/

namespace Verdict.Date

open Text (hexDigit isAsciiDigit)

/-! ## Spellings -/

/-- The ways to write a date. -/
inductive Spelling where
  /-- Year, month and day. -/
  | byMonth (hyphens : Bool)
  /-- Year, week and weekday. -/
  | byWeek (hyphens : Bool)
  deriving DecidableEq, Repr

/-- Whether a spelling has hyphens. -/
def Spelling.hyphens : Spelling → Bool
  | .byMonth hyphens => hyphens
  | .byWeek hyphens => hyphens

/-- The hyphen between two parts, where hyphens are asked for. -/
def hyphen (asked : Bool) : List Char := if asked then ['-'] else []

/-- The characters of a date in a spelling. -/
def spelled (d : Date) : Spelling → List Char
  | .byMonth hyphens =>
    paddedDigits 4 d.year ++ (hyphen hyphens ++ (paddedDigits 2 d.month ++
      (hyphen hyphens ++ paddedDigits 2 d.day)))
  | .byWeek hyphens =>
    paddedDigits 4 d.weekYear ++ (hyphen hyphens ++ 'W' :: (paddedDigits 2 d.weekNumber ++
      (hyphen hyphens ++ paddedDigits 1 d.weekday)))

/-! ## Digits of fixed width -/

theorem isAsciiDigit_hexDigit : ∀ n < 10, isAsciiDigit (hexDigit n) = true := by decide

theorem toNat_hexDigit_sub : ∀ n < 10, (hexDigit n).toNat - 48 = n := by decide

/-- Reading digits goes on where it stopped. -/
theorem fixedDigits?_add (width more n : Nat) (cs : List Char) :
    fixedDigits? (width + more) n cs =
      (fixedDigits? width n cs).bind fun p => fixedDigits? more p.1 p.2 := by
  induction width generalizing n cs with
  | zero => rw [Nat.zero_add, fixedDigits?, Option.bind_some]
  | succ width ih =>
    rw [Nat.succ_add]
    cases cs with
    | nil => rfl
    | cons c cs =>
      rw [fixedDigits?, fixedDigits?]
      split
      · exact ih _ _
      · rfl

/-- Digits of fixed width are read back, up to what does not fit into the width. -/
theorem fixedDigits?_paddedDigits (width m n : Nat) (rest : List Char) :
    fixedDigits? width m (paddedDigits width n ++ rest) =
      some (m * 10 ^ width + n % 10 ^ width, rest) := by
  -- the last digit is the one that is written last
  induction width generalizing n rest with
  | zero => simp [fixedDigits?, paddedDigits, Nat.mod_one]
  | succ width ih =>
    have hdigit : n % 10 < 10 := Nat.mod_lt n (by decide)
    rw [paddedDigits, List.append_assoc, fixedDigits?_add, ih, Option.bind_some,
      List.singleton_append, fixedDigits?, if_pos (isAsciiDigit_hexDigit _ hdigit),
      toNat_hexDigit_sub _ hdigit, fixedDigits?]
    have hvalue : 10 * (m * 10 ^ width + n / 10 % 10 ^ width) + n % 10 =
        m * 10 ^ (width + 1) + n % 10 ^ (width + 1) := by
      rw [Nat.pow_succ, Nat.mul_comm (10 ^ width) 10, Nat.mod_mul, Nat.mul_left_comm]
      omega
    rw [hvalue]

/-- A number that fits into the width is read back. -/
theorem fixedDigits?_of_lt {width n : Nat} (h : n < 10 ^ width) (rest : List Char) :
    fixedDigits? width 0 (paddedDigits width n ++ rest) = some (n, rest) := by
  rw [fixedDigits?_paddedDigits, Nat.zero_mul, Nat.zero_add, Nat.mod_eq_of_lt h]

/-! ## Reading back -/

theorem separator?_hyphen (asked : Bool) (rest : List Char) :
    separator? asked (hyphen asked ++ rest) = some rest := by
  cases asked <;> rfl

/-- Month and day are read back, whatever stands behind them. -/
theorem ofMonthChars?_spelled (d : Date) (hyphens : Bool) (rest : List Char) :
    ofMonthChars? d.year hyphens (paddedDigits 2 d.month ++
      (hyphen hyphens ++ (paddedDigits 2 d.day ++ rest))) = some d := by
  have hmonth : d.month < 10 ^ 2 := Nat.lt_of_le_of_lt d.month_mem.2 (by decide)
  have hday : d.day < 10 ^ 2 :=
    Nat.lt_of_le_of_lt (d.day_mem.2.trans (daysInMonth_le _ _)) (by decide)
  simp only [ofMonthChars?, fixedDigits?_of_lt hmonth, separator?_hyphen, fixedDigits?_of_lt hday,
    bind, Option.bind_some, make_parts, Except.toOption]

/-- Week and weekday are read back, whatever stands behind them. -/
theorem ofWeekChars?_spelled (d : Date) (hyphens : Bool) (rest : List Char) :
    ofWeekChars? d.weekYear hyphens (paddedDigits 2 d.weekNumber ++
      (hyphen hyphens ++ (paddedDigits 1 d.weekday ++ rest))) = some d := by
  have hweek : d.weekNumber < 10 ^ 2 := Nat.lt_of_le_of_lt d.weekNumber_le (by decide)
  have hweekday : d.weekday < 10 ^ 1 := Nat.lt_of_le_of_lt d.weekday_mem.2 (by decide)
  have hbehind : (hyphen hyphens ++ (paddedDigits 1 d.weekday ++ rest)).isEmpty = false := by
    cases hyphens <;> rfl
  simp only [ofWeekChars?, fixedDigits?_of_lt hweek, separator?_hyphen,
    fixedDigits?_of_lt hweekday, bind, Option.bind_some, hbehind, Bool.false_eq_true, if_false,
    ofWeek?_week]

/-- A `W` behind the year announces a week. -/
theorem ofChars?_of_week {year : Nat} (h : year < 10 ^ 4) (hyphens : Bool) (rest : List Char) :
    ofChars? (paddedDigits 4 year ++ (hyphen hyphens ++ 'W' :: rest)) =
      ofWeekChars? year hyphens rest := by
  rw [ofChars?, fixedDigits?_of_lt h]
  cases hyphens <;> rfl

/-- A digit behind the year begins a month. -/
theorem ofChars?_of_month {year : Nat} (h : year < 10 ^ 4) (hyphens : Bool) {c : Char}
    (hc : isAsciiDigit c = true) (rest : List Char) :
    ofChars? (paddedDigits 4 year ++ (hyphen hyphens ++ c :: rest)) =
      ofMonthChars? year hyphens (c :: rest) := by
  have hhyphen : c ≠ '-' := by
    rintro rfl
    exact absurd hc (by decide)
  have hweek : c ≠ 'W' := by
    rintro rfl
    exact absurd hc (by decide)
  rw [ofChars?, fixedDigits?_of_lt h]
  cases hyphens <;> simp [hyphen, hhyphen, hweek]

/-- The characters of a spelled date are read back, whatever stands behind them. -/
theorem ofChars?_spelled (d : Date) (spelling : Spelling) (rest : List Char) :
    ofChars? (d.spelled spelling ++ rest) = some d := by
  cases spelling with
  | byMonth hyphens =>
    have hyear : d.year < 10 ^ 4 := Nat.lt_of_le_of_lt d.year_mem.2 (by decide)
    have hdigit : isAsciiDigit (hexDigit (d.month / 10 % 10)) = true :=
      isAsciiDigit_hexDigit _ (Nat.mod_lt _ (by decide))
    simp only [spelled, List.append_assoc]
    exact (ofChars?_of_month hyear hyphens hdigit _).trans (d.ofMonthChars?_spelled hyphens rest)
  | byWeek hyphens =>
    have hyear : d.weekYear < 10 ^ 4 := Nat.lt_of_le_of_lt d.weekYear_mem.2 (by decide)
    simp only [spelled, List.append_assoc, List.cons_append]
    exact (ofChars?_of_week hyear hyphens _).trans (d.ofWeekChars?_spelled hyphens rest)

/-! ## Texts -/

theorem utf8ByteSize_ofList {cs : List Char} (h : ∀ c ∈ cs, c.utf8Size = 1) :
    (String.ofList cs).utf8ByteSize = cs.length := by
  induction cs with
  | nil => rfl
  | cons c cs ih =>
    obtain ⟨hc, hcs⟩ := List.forall_mem_cons.1 h
    rw [String.ofList_cons, String.utf8ByteSize_append, String.utf8ByteSize_singleton, hc, ih hcs,
      List.length_cons, Nat.add_comm]

theorem length_paddedDigits (width n : Nat) : (paddedDigits width n).length = width := by
  induction width generalizing n with
  | zero => rfl
  | succ width ih => rw [paddedDigits, List.length_append, ih, List.length_singleton]

/-- A spelled date has eight characters, and ten with hyphens. -/
theorem length_spelled (d : Date) (spelling : Spelling) :
    (d.spelled spelling).length = if spelling.hyphens then 10 else 8 := by
  rcases spelling with (_ | _) | (_ | _) <;>
    simp [spelled, hyphen, length_paddedDigits, Spelling.hyphens]

/-- Whether a character takes one byte and is no blank. -/
def IsPlain (c : Char) : Prop := c.utf8Size = 1 ∧ Text.isBlank c = false

instance (c : Char) : Decidable (IsPlain c) := inferInstanceAs (Decidable (_ ∧ _))

/-- The digits of a number are plain characters. -/
theorem isPlain_of_mem_paddedDigits {width n : Nat} {c : Char} (h : c ∈ paddedDigits width n) :
    IsPlain c := by
  have hdigits : ∀ n < 10, IsPlain (hexDigit n) := by decide
  induction width generalizing n with
  | zero => exact absurd h List.not_mem_nil
  | succ width ih =>
    rw [paddedDigits, List.mem_append, List.mem_singleton] at h
    rcases h with h | rfl
    · exact ih h
    · exact hdigits _ (Nat.mod_lt n (by decide))

theorem isPlain_of_mem_hyphen {asked : Bool} {c : Char} (h : c ∈ hyphen asked) : IsPlain c := by
  cases asked with
  | false => exact absurd h List.not_mem_nil
  | true =>
    rw [List.mem_singleton.1 h]
    decide

/-- Every spelling of a date is of plain characters alone, whatever its form. -/
theorem isPlain_of_mem_spelled {d : Date} {spelling : Spelling} {c : Char}
    (h : c ∈ d.spelled spelling) : IsPlain c := by
  cases spelling with
  | byMonth hyphens =>
    simp only [spelled, List.mem_append] at h
    rcases h with h | h | h | h | h
    · exact isPlain_of_mem_paddedDigits h
    · exact isPlain_of_mem_hyphen h
    · exact isPlain_of_mem_paddedDigits h
    · exact isPlain_of_mem_hyphen h
    · exact isPlain_of_mem_paddedDigits h
  | byWeek hyphens =>
    simp only [spelled, List.mem_append, List.mem_cons] at h
    rcases h with h | h | rfl | h | h | h
    · exact isPlain_of_mem_paddedDigits h
    · exact isPlain_of_mem_hyphen h
    · decide
    · exact isPlain_of_mem_paddedDigits h
    · exact isPlain_of_mem_hyphen h
    · exact isPlain_of_mem_paddedDigits h

/-- A spelled date takes a byte for each character. -/
theorem utf8ByteSize_spelled (d : Date) (spelling : Spelling) :
    (String.ofList (d.spelled spelling)).utf8ByteSize = if spelling.hyphens then 10 else 8 := by
  rw [utf8ByteSize_ofList fun c hc => (isPlain_of_mem_spelled hc).1, length_spelled]

/-- **A date is read back from each of its spellings.** -/
theorem ofText?_spelled (d : Date) (spelling : Spelling) :
    ofText? (String.ofList (d.spelled spelling)) = some d := by
  have hbytes := d.utf8ByteSize_spelled spelling
  have hread := d.ofChars?_spelled spelling []
  rw [List.append_nil] at hread
  rw [ofText?, if_pos (by split at hbytes <;> omega), String.toList_ofList, hread]

end Verdict.Date
