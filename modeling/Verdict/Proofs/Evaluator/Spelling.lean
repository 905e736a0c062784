import Verdict.Proofs.Evaluator.Refusal
import Verdict.Proofs.Numeric.Digits
import Verdict.Proofs.Text.Case
/-!
# Spellings of weekdays and months

A number of the calendar has one text in digits and some names. More zeros in front of the digits,
other letter case and blanks around a text make other spellings of the same number (`Spelling`).
Arguments are trimmed and lowered before they are looked up, and what is found to name a number is
exactly a spelling of it (`names_iff_spelling`).
-/

namespace Verdict

open Text

namespace Text

/-- Digits have no case, so that a text that is lowered to digits is these digits. -/
theorem eq_of_map_toLower {cs ds : List Char} (hdigits : ∀ c ∈ cs, isAsciiDigit c = true)
    (h : cs.map Char.toLower = ds.map Char.toLower) : cs = ds := by
  have hsame : ∀ es : List Char, (∀ c ∈ es, isAsciiDigit c = true) → es.map Char.toLower = es := by
    intro es hes
    rw [List.map_congr_left fun c hc => CalendarPart.toLower_of_isAsciiDigit (hes c hc),
      List.map_id']
  rw [hsame cs hdigits] at h
  rw [h, hsame ds]
  intro d hd
  rw [← CalendarPart.isAsciiDigit_toLower]
  exact hdigits _ (h ▸ List.mem_map_of_mem hd)

end Text

namespace CalendarPart

/-- The spellings of a number of the calendar. -/
inductive Spelling (part : CalendarPart) (n : Nat) : String → Prop
  /-- It is the number in digits, with any number of zeros in front. -/
  | number (zeros : Nat) (first : 1 ≤ n) (last : n ≤ part.last) :
      Spelling part n (String.ofList (List.replicate zeros '0' ++ Nat.toDigits 10 n))
  /-- It is one of the names of the number. -/
  | name {s : String} (listed : (s, n) ∈ part.names) : Spelling part n s
  /-- It differs from a spelling in letter case. -/
  | letterCase {s t : String} (spelled : Spelling part n s) (same : lowered s = lowered t) :
      Spelling part n t
  /-- It is a spelling between blanks. -/
  | blanks {before s after : String} (spelled : Spelling part n s)
      (hbefore : isBlankText before = true) (hafter : isBlankText after = true) :
      Spelling part n (before ++ s ++ after)

variable {part : CalendarPart} {n : Nat} {s t : String}

theorem Names.congr_trim (h : part.Names s n) (hst : trim s = trim t) : part.Names t n := by
  have hchars : trimChars s.toList = trimChars t.toList := by rw [← toList_trim, hst, toList_trim]
  cases h with
  | number digits written value first last =>
    rw [hchars] at digits written value
    exact .number digits written value first last
  | name listed => exact .name (hst ▸ listed)

/-- Letter case makes no difference to what an argument names. -/
theorem Names.congr_lowered (h : part.Names s n) (hst : lowered s = lowered t) :
    part.Names t n := by
  cases h with
  | number digits written value first last =>
    have hlower :
        (trimChars s.toList).map Char.toLower = (trimChars t.toList).map Char.toLower := by
      rw [← trimChars_map_toLower, ← trimChars_map_toLower, ← toList_lowered, hst, toList_lowered]
    have hchars := eq_of_map_toLower digits hlower
    rw [hchars] at digits written value
    exact .number digits written value first last
  | name listed =>
    rw [lowered_trim, hst, ← lowered_trim] at listed
    exact .name listed

/-- The digits of a number name it, whatever zeros stand in front. -/
theorem names_number (zeros : Nat) (first : 1 ≤ n) (last : n ≤ part.last) :
    part.Names (String.ofList (List.replicate zeros '0' ++ Nat.toDigits 10 n)) n := by
  have hdigits : ∀ c ∈ List.replicate zeros '0' ++ Nat.toDigits 10 n, c.isDigit = true := by
    intro c hc
    rcases List.mem_append.1 hc with hc | hc
    · rw [List.eq_of_mem_replicate hc]
      decide
    · exact Numeral.isDigit_of_mem_toDigits c hc
  have htrim : trimChars (List.replicate zeros '0' ++ Nat.toDigits 10 n) =
      List.replicate zeros '0' ++ Nat.toDigits 10 n :=
    trimChars_of_forall fun c hc => isBlank_of_isDigit (hdigits c hc)
  refine .number ?_ ?_ ?_ first last
  · rw [String.toList_ofList, htrim]
    intro c hc
    rw [isAsciiDigit_eq_isDigit]
    exact hdigits c hc
  · rw [String.toList_ofList, htrim]
    exact List.append_ne_nil_of_right_ne_nil _ Nat.toDigits_ne_nil
  · rw [String.toList_ofList, htrim, ← ofDigits_eq, ← Numeral.asciiValues,
      Numeral.ofDigits_asciiValues, Nat.ofDigitChars_append, Nat.ofDigitChars_replicate_zero,
      Nat.mul_zero, Nat.ofDigitChars_ten_toDigits]

/-- A spelling of a number names it. -/
theorem names_of_spelling (h : part.Spelling n s) : part.Names s n := by
  induction h with
  | number zeros first last => exact names_number zeros first last
  | @name s listed =>
    -- the names are listed in lower case, and none has a blank in it
    have hplain : ∀ e ∈ part.names, lowered (trim e.1) = e.1 := by cases part <;> decide
    have hs : lowered (trim s) = s := hplain (s, n) listed
    exact .name (hs.symm ▸ listed)
  | letterCase _ same ih => exact ih.congr_lowered same
  | blanks _ hbefore hafter ih => exact ih.congr_trim (trim_append hbefore hafter _).symm

/-- What names a number is a spelling of it. -/
theorem spelling_of_names (h : part.Names s n) : part.Spelling n s := by
  obtain ⟨before, after, hs, hbefore, hafter⟩ := exists_of_trim s
  rw [hs]
  refine .blanks ?_ hbefore hafter
  cases h with
  | number digits written value first last =>
    have hvalue : Nat.ofDigitChars 10 (trimChars s.toList) 0 = n := by
      rw [value, ← ofDigits_eq, ← Numeral.asciiValues, Numeral.ofDigits_asciiValues]
    have hdigits : ∀ c ∈ trimChars s.toList, c.isDigit = true :=
      fun c hc => isAsciiDigit_eq_isDigit c ▸ digits c hc
    obtain ⟨zeros, hzeros⟩ := exists_zeros_of_isDigit hdigits (by omega)
    rw [trim, hzeros, hvalue]
    exact .number zeros first last
  | name listed => exact .letterCase (.name listed) (lowered_lowered _)

/-- **What names a number is a spelling of it.** -/
theorem names_iff_spelling : part.Names s n ↔ part.Spelling n s :=
  ⟨spelling_of_names, names_of_spelling⟩

end CalendarPart

end Verdict
