import Verdict.Config.Section
import Verdict.Proofs.Calendar.DateText
/-!
# The dates of a configuration, as texts

Whoever gives a date by a text is told to write it as `YYYY-MM-DD`, with blanks around it at will. A
date that is written in this way is taken, and what writes no date in any way is refused. In between
are the texts that a calendar reads as dates although nobody was told of them: they are taken too,
the last two characters of `20170329ab` notwithstanding. This module says exactly which texts those
are (`readDate_text`).
-/

namespace Verdict

open Text

variable {d : Date} {key s : String}

theorem readDate_text_eq_ok_iff :
    readDate key (.text s) = .ok (some d) ↔ trim s = d.text ∨ d.OtherText (trim s) := by
  rw [← Date.ofText?_eq_some_iff, readDate]
  cases Date.ofText? (trim s) <;> simp

theorem readDate_text_eq_notDate_iff :
    readDate key (.text s) = .error (.declared (.notDate key (quoted s))) ↔
      ∀ d : Date, trim s ≠ d.text ∧ ¬ d.OtherText (trim s) := by
  simp only [← not_or, ← Date.ofText?_eq_some_iff, readDate]
  cases Date.ofText? (trim s) <;> simp

/-- **Which texts are read as dates.** A text between blanks is read as a date exactly if it is the
`YYYY-MM-DD` of the date or one of its other texts, and refused as none, with the key and the text
in the message, exactly if it is neither for any date. The other texts are none of those that dates
are documented to have, so a text that is no other text of any date is read as a date only if it is
the `YYYY-MM-DD` of it. -/
theorem readDate_text (key s : String) :
    (∀ d : Date, readDate key (.text s) = .ok (some d) ↔
      trim s = d.text ∨ d.OtherText (trim s)) ∧
    (readDate key (.text s) = .error (.declared (.notDate key (quoted s))) ↔
      ∀ d : Date, trim s ≠ d.text ∧ ¬ d.OtherText (trim s)) ∧
    (∀ d : Date, d.OtherText (trim s) → ∀ e : Date, trim s ≠ e.text) ∧
    ((∀ d : Date, ¬ d.OtherText (trim s)) →
      (∀ d : Date, readDate key (.text s) = .ok (some d) ↔ trim s = d.text) ∧
      ((∀ d : Date, trim s ≠ d.text) →
        readDate key (.text s) = .error (.declared (.notDate key (quoted s))))) := by
  refine ⟨fun d => readDate_text_eq_ok_iff, readDate_text_eq_notDate_iff,
    fun d => Date.ne_text_of_otherText, fun hdocumented => ⟨fun d => ?_, fun hnone => ?_⟩⟩
  · rw [readDate_text_eq_ok_iff, or_iff_left (hdocumented d)]
  · exact readDate_text_eq_notDate_iff.2 fun d => ⟨hnone d, hdocumented d⟩

/-- Digits without hyphens are read as a date, and so are letters behind them; neither text is the
`YYYY-MM-DD` of a date. -/
theorem readDate_text_without_hyphens :
    let d : Date := ⟨2017, 3, 29, by decide, by decide⟩
    ∀ s ∈ ["20170329", "20170329ab"],
      readDate "today" (.text s) = .ok (some d) ∧ ∀ e : Date, trim s ≠ e.text := by
  intro d s hs
  have hother : d.OtherText (trim s) := by
    have hdigits : trim "20170329" = String.ofList (d.spelled (.byMonth false)) ++ "" := by decide
    have hletters : trim "20170329ab" = String.ofList (d.spelled (.byMonth false)) ++ "ab" := by
      decide
    simp only [List.mem_cons, List.not_mem_nil, or_false] at hs
    rcases hs with rfl | rfl
    · rw [hdigits]
      exact .compact rfl (.inl rfl)
    · rw [hletters]
      exact .compact rfl (.inr rfl)
  exact ⟨readDate_text_eq_ok_iff.2 (.inr hother), Date.ne_text_of_otherText hother⟩

end Verdict
