import Verdict.Proofs.Calendar.IsoText
/-!
# What is read as a date

Reading takes more texts for a date than the one that writes it. Beside `YYYY-MM-DD` there are the
spelling by week, the spellings without hyphens, and the weeks without a weekday, which stand for
their Mondays; and a spelling without hyphens may have two more bytes of anything behind it, since
only the length of the text is looked at there. These are all (`ofText?_eq_some_iff`), and none of
the others is a text that writes a date (`ne_text_of_otherText`).

Reading is taken back step by step, so that each part of the text is found to be the digits of a
part of the date.
-/

namespace Verdict.Date

open Text (hexDigit isAsciiDigit)

variable {d : Date} {year n : Nat} {cs rest : List Char}

/-! ## Parts -/

/-- An ASCII digit is the digit of its value. -/
theorem hexDigit_of_isAsciiDigit {c : Char} (h : isAsciiDigit c = true) :
    c.toNat - 48 < 10 ∧ hexDigit (c.toNat - 48) = c := by
  have hrange : 48 ≤ c.toNat ∧ c.toNat ≤ 57 := by simpa [isAsciiDigit] using h
  have hsum : 48 + (c.toNat - 48) = c.toNat := by omega
  refine ⟨by omega, ?_⟩
  rw [hexDigit, if_pos (by omega), hsum, Char.ofNat_toNat]

/-- What is read as digits of fixed width are the digits of the number. -/
theorem eq_of_fixedDigits? {width : Nat} (h : fixedDigits? width 0 cs = some (n, rest)) :
    cs = paddedDigits width n ++ rest := by
  -- the last digit is read last
  induction width generalizing n rest with
  | zero =>
    cases h
    rfl
  | succ width ih =>
    rw [fixedDigits?_add, Option.bind_eq_some_iff] at h
    obtain ⟨⟨m, last⟩, hm, h⟩ := h
    rw [ih hm]
    cases last with
    | nil => cases h
    | cons c last =>
      simp only [fixedDigits?] at h
      split at h
      · next hdigit =>
        obtain ⟨hten, hc⟩ := hexDigit_of_isAsciiDigit hdigit
        cases h
        have hfront : (10 * m + (c.toNat - 48)) / 10 = m := by omega
        have hback : (10 * m + (c.toNat - 48)) % 10 = c.toNat - 48 := by omega
        rw [paddedDigits, hfront, hback, hc, List.append_assoc, List.singleton_append]
      · cases h

/-- Characters begin with a hyphen or not. -/
theorem exists_hyphen (cs : List Char) : ∃ hyphens more, cs = hyphen hyphens ++ more ∧
    decide (cs.head? = some '-') = hyphens ∧ (if cs.head? = some '-' then cs.drop 1 else cs) = more
    := by
  by_cases hhead : cs.head? = some '-'
  · refine ⟨true, cs.drop 1, ?_, decide_eq_true hhead, if_pos hhead⟩
    cases cs with
    | nil => cases hhead
    | cons c cs =>
      cases hhead
      rfl
  · exact ⟨false, cs, rfl, decide_eq_false hhead, if_neg hhead⟩

/-- A hyphen is passed over where one is asked for, and nothing elsewhere. -/
theorem eq_of_separator? {asked : Bool} (h : separator? asked cs = some rest) :
    cs = hyphen asked ++ rest := by
  cases asked with
  | false =>
    cases h
    rfl
  | true =>
    simp only [separator?, if_true] at h
    split at h
    · cases h
      rfl
    · cases h

/-! ## Dates -/

/-- The characters of the week of a date. -/
def weekChars (d : Date) (hyphens : Bool) : List Char :=
  paddedDigits 4 d.weekYear ++ (hyphen hyphens ++ 'W' :: paddedDigits 2 d.weekNumber)

/-- What is read as a month and a day are those of the date, with anything behind them. -/
theorem eq_of_ofMonthChars? {hyphens : Bool} (h : ofMonthChars? year hyphens cs = some d) :
    d.year = year ∧ ∃ rest, cs = paddedDigits 2 d.month ++ (hyphen hyphens ++
      (paddedDigits 2 d.day ++ rest)) := by
  simp only [ofMonthChars?, bind, Option.bind_eq_some_iff, Prod.exists] at h
  obtain ⟨month, behind, hmonth, behind', hbehind, day, rest, hday, h⟩ := h
  obtain ⟨rfl, rfl, rfl⟩ := parts_of_make h
  refine ⟨rfl, rest, ?_⟩
  rw [eq_of_fixedDigits? hmonth, eq_of_separator? hbehind, eq_of_fixedDigits? hday]

/-- What is read as a week and a weekday are those of the date, with anything behind them; and a
week alone is that of the date, which is its Monday. -/
theorem eq_of_ofWeekChars? {hyphens : Bool} (h : ofWeekChars? year hyphens cs = some d) :
    d.weekYear = year ∧ (d.weekday = 1 ∧ cs = paddedDigits 2 d.weekNumber ∨
      ∃ rest, cs = paddedDigits 2 d.weekNumber ++ (hyphen hyphens ++
        (paddedDigits 1 d.weekday ++ rest))) := by
  simp only [ofWeekChars?, bind, Option.bind_eq_some_iff, Prod.exists] at h
  obtain ⟨week, behind, hweek, h⟩ := h
  rw [eq_of_fixedDigits? hweek]
  split at h
  · next hempty =>
    obtain ⟨rfl, rfl, hmonday⟩ := week_of_ofWeek? h
    refine ⟨rfl, .inl ⟨hmonday, ?_⟩⟩
    rw [List.isEmpty_iff.1 hempty, List.append_nil]
  · simp only [Option.bind_eq_some_iff, Prod.exists] at h
    obtain ⟨behind', hbehind, weekday, rest, hweekday, h⟩ := h
    obtain ⟨rfl, rfl, rfl⟩ := week_of_ofWeek? h
    refine ⟨rfl, .inr ⟨rest, ?_⟩⟩
    rw [eq_of_separator? hbehind, eq_of_fixedDigits? hweekday]

/-- The week of a date is read as its Monday. -/
theorem ofChars?_weekChars (hmonday : d.weekday = 1) (hyphens : Bool) :
    ofChars? (d.weekChars hyphens) = some d := by
  have hyear : d.weekYear < 10 ^ 4 := Nat.lt_of_le_of_lt d.weekYear_mem.2 (by decide)
  have hweek : d.weekNumber < 10 ^ 2 := Nat.lt_of_le_of_lt d.weekNumber_le (by decide)
  have hread := fixedDigits?_of_lt hweek []
  have hfound := d.ofWeek?_week
  rw [List.append_nil] at hread
  rw [hmonday] at hfound
  rw [weekChars, ofChars?_of_week hyear]
  simp only [ofWeekChars?, hread, bind, Option.bind_some, List.isEmpty_nil, if_true, hfound]

/-- **Characters are read as a date exactly if they begin with a spelling of it**, or are its week
and the date is a Monday. -/
theorem ofChars?_eq_some_iff : ofChars? cs = some d ↔
    (∃ spelling rest, cs = d.spelled spelling ++ rest) ∨
      d.weekday = 1 ∧ ∃ hyphens, cs = d.weekChars hyphens := by
  constructor
  · intro h
    simp only [ofChars?, bind, Option.bind_eq_some_iff, Prod.exists] at h
    obtain ⟨year, behind, hyear, h⟩ := h
    rw [eq_of_fixedDigits? hyear]
    -- behind the year there is a hyphen or not, and then a week or a month
    obtain ⟨hyphens, more, hbehind, hhyphens, hmore⟩ := exists_hyphen behind
    rw [hmore, hhyphens] at h
    rw [hbehind]
    split at h
    · obtain ⟨rfl, ⟨hmonday, rfl⟩ | ⟨rest, rfl⟩⟩ := eq_of_ofWeekChars? h
      · exact .inr ⟨hmonday, hyphens, rfl⟩
      · exact .inl ⟨.byWeek hyphens, rest, by simp [spelled]⟩
    · obtain ⟨rfl, rest, rfl⟩ := eq_of_ofMonthChars? h
      exact .inl ⟨.byMonth hyphens, rest, by simp [spelled]⟩
  · rintro (⟨spelling, rest, rfl⟩ | ⟨hmonday, hyphens, rfl⟩)
    · exact d.ofChars?_spelled spelling rest
    · exact ofChars?_weekChars hmonday hyphens

/-! ## Texts -/

/-- The texts other than `YYYY-MM-DD` that are read as a date. -/
inductive OtherText (d : Date) : String → Prop
  /-- The date by week and weekday, with hyphens. -/
  | byWeek : OtherText d (String.ofList (d.spelled (.byWeek true)))
  /-- The date without hyphens, and nothing behind it or two bytes of anything. -/
  | compact {spelling : Spelling} (hcompact : spelling.hyphens = false) {rest : String}
    (hrest : rest.utf8ByteSize = 0 ∨ rest.utf8ByteSize = 2) :
    OtherText d (String.ofList (d.spelled spelling) ++ rest)
  /-- The week of the date, which is a Monday. -/
  | monday (hmonday : d.weekday = 1) (hyphens : Bool) :
    OtherText d (String.ofList (d.weekChars hyphens))

variable {s : String}

/-- A week without its day is written in seven bytes, or in eight with a hyphen. -/
theorem utf8ByteSize_weekChars (d : Date) (hyphens : Bool) :
    (String.ofList (d.weekChars hyphens)).utf8ByteSize = if hyphens then 8 else 7 := by
  have hplain : ∀ c ∈ d.weekChars hyphens, c.utf8Size = 1 := by
    intro c hc
    simp only [weekChars, List.mem_append, List.mem_cons] at hc
    rcases hc with hc | hc | rfl | hc
    · exact (isPlain_of_mem_paddedDigits hc).1
    · exact (isPlain_of_mem_hyphen hc).1
    · decide
    · exact (isPlain_of_mem_paddedDigits hc).1
  rw [utf8ByteSize_ofList hplain]
  cases hyphens <;> simp [weekChars, hyphen, length_paddedDigits]

/-- **A text is read as a date exactly if it is the text of the date or one of the others.** -/
theorem ofText?_eq_some_iff : ofText? s = some d ↔ s = d.text ∨ d.OtherText s := by
  constructor
  · intro h
    unfold ofText? at h
    split at h
    · next hsize =>
      rcases ofChars?_eq_some_iff.1 h with ⟨spelling, rest, hs⟩ | ⟨hmonday, hyphens, hs⟩
      · have hjoined : s = String.ofList (d.spelled spelling) ++ String.ofList rest := by
          rw [← String.ofList_append, ← hs, String.ofList_toList]
        rw [hjoined, String.utf8ByteSize_append, utf8ByteSize_spelled] at hsize
        rw [hjoined]
        cases hhyphens : spelling.hyphens with
        | false =>
          rw [hhyphens, if_neg Bool.false_ne_true] at hsize
          exact .inr (.compact hhyphens (by omega))
        | true =>
          -- ten bytes leave no room for more
          rw [hhyphens, if_pos rfl] at hsize
          have hnone : String.ofList rest = "" := String.utf8ByteSize_eq_zero_iff.1 (by omega)
          rw [hnone, String.append_empty]
          cases spelling with
          | byMonth hyphens =>
            cases hhyphens
            exact .inl rfl
          | byWeek hyphens =>
            cases hhyphens
            exact .inr .byWeek
      · rw [← String.ofList_toList (s := s), hs]
        exact .inr (.monday hmonday hyphens)
    · cases h
  · have hspelled (spelling : Spelling) {rest : String} (hsize :
        (if spelling.hyphens then 10 else 8) + rest.utf8ByteSize = 8 ∨
        (if spelling.hyphens then 10 else 8) + rest.utf8ByteSize = 10) :
        ofText? (String.ofList (d.spelled spelling) ++ rest) = some d := by
      rw [ofText?, String.utf8ByteSize_append, utf8ByteSize_spelled, if_pos (.inr hsize),
        String.toList_append, String.toList_ofList, ofChars?_spelled]
    rintro (rfl | hother)
    · exact d.ofText?_spelled (.byMonth true)
    · cases hother with
      | byWeek => exact d.ofText?_spelled (.byWeek true)
      | compact hcompact hrest =>
        refine hspelled _ ?_
        rw [hcompact, if_neg Bool.false_ne_true]
        omega
      | monday hmonday hyphens =>
        rw [ofText?, utf8ByteSize_weekChars, if_pos (by cases hyphens <;> decide),
          String.toList_ofList, ofChars?_weekChars hmonday]

/-- What stands behind the year in the text of a date. -/
theorem eq_of_append_eq_chars {e : Date} (h : paddedDigits 4 year ++ cs = e.chars) :
    cs = '-' :: (paddedDigits 2 e.month ++ '-' :: paddedDigits 2 e.day) := by
  rw [chars, List.append_assoc, List.cons_append] at h
  exact (List.append_inj h (by rw [length_paddedDigits, length_paddedDigits])).2

/-- **None of the other texts is the text of a date**: behind the year they have no hyphen, or one
and a `W`. -/
theorem ne_text_of_otherText (h : d.OtherText s) (e : Date) : s ≠ e.text := by
  intro heq
  have hchars : s.toList = e.chars := by rw [heq, text, String.toList_ofList]
  -- behind the year, the month begins with a hyphen and a digit: none of the other forms does
  have hdigit {n : Nat} : hexDigit (n % 10) ≠ '-' ∧ hexDigit (n % 10) ≠ 'W' := by
    have hall : ∀ n < 10, hexDigit n ≠ '-' ∧ hexDigit n ≠ 'W' := by decide
    exact hall _ (Nat.mod_lt n (by decide))
  cases h with
  | byWeek =>
    rw [String.toList_ofList] at hchars
    have hrest := eq_of_append_eq_chars hchars
    exact hdigit.2 (List.cons.inj (List.cons.inj hrest).2).1.symm
  | @compact spelling hcompact rest hrest =>
    rw [String.toList_append, String.toList_ofList] at hchars
    cases spelling with
    | byMonth hyphens =>
      cases hcompact
      simp only [spelled, List.append_assoc] at hchars
      have hrest := eq_of_append_eq_chars hchars
      exact hdigit.1 (List.cons.inj hrest).1
    | byWeek hyphens =>
      cases hcompact
      simp only [spelled, List.append_assoc] at hchars
      have hrest := eq_of_append_eq_chars hchars
      exact absurd (List.cons.inj hrest).1 (by decide)
  | monday hmonday hyphens =>
    rw [String.toList_ofList] at hchars
    have hrest := eq_of_append_eq_chars hchars
    cases hyphens with
    | false => exact absurd (List.cons.inj hrest).1 (by decide)
    | true => exact hdigit.2 (List.cons.inj (List.cons.inj hrest).2).1.symm

end Verdict.Date
