import Verdict.Proofs.Attempt
import Verdict.Proofs.Calendar.IsoText
import Verdict.Proofs.Numeric.Shortest
import Verdict.Proofs.Text.Line
import Verdict.Value.Display
/-!
# Values are shown on one line

Whatever a value holds, it is shown on one line (`oneLine_shown`): texts and bytes are quoted, and
numbers, dates and moments are written in digits and marks. What a value says by itself is the same,
unless it is a text, which says itself as it is (`oneLine_toText`).
-/

namespace Verdict

open Text

/-! ## Numbers -/

/-- A text without blanks is one line. -/
theorem oneLine_of_isBlank {s : String} (h : ∀ c ∈ s.toList, isBlank c = false) : OneLine s :=
  fun hfeed => absurd (h '\n' hfeed) (by decide)

theorem oneLine_integerText (n : Int) : OneLine (integerText n) :=
  oneLine_of_isBlank (Numeral.writes_integerText n).isBlank_eq_false

@[simp] theorem oneLine_repr (n : Nat) : OneLine n.repr := by
  rw [Nat.repr, oneLine_ofList_iff]
  exact fun hfeed => absurd (Numeral.isDigit_of_mem_toDigits _ hfeed) (by decide)

@[simp] theorem oneLine_repr_int (n : Int) : OneLine n.repr := by
  cases n with
  | ofNat n => exact oneLine_repr n
  | negSucc n => exact oneLine_append_iff.2 ⟨by decide, oneLine_repr (n + 1)⟩

/-- A floating-point number is written on one line. -/
theorem Binary64.oneLine_text (x : Binary64) : OneLine x.text := by
  cases x with
  | nan => decide
  | infinite negative => cases negative <;> decide
  | finite negative rank =>
    obtain ⟨coefficient, exponent, htext, -⟩ := exists_magnitudeText negative rank
    obtain ⟨n, hwrites, -⟩ := writesFraction_decimalText negative coefficient exponent
    have hchars : (Binary64.finite negative rank).text.toList =
        Numeral.minus negative ++ (decimalText coefficient exponent).toList := by
      rw [text, String.toList_append, htext]
      cases negative <;> rfl
    exact oneLine_of_isBlank (hchars ▸ hwrites.isBlank_eq_false)

/-! ## Dates and moments -/

theorem Date.lineFeed_notMem_paddedDigits (width n : Nat) : '\n' ∉ paddedDigits width n :=
  fun hfeed => absurd (isPlain_of_mem_paddedDigits hfeed).2 (by decide)

theorem Date.oneLine_text (d : Date) : OneLine d.text := by
  simp only [text, chars, oneLine_ofList_iff, List.mem_append, List.mem_cons, not_or]
  simp [lineFeed_notMem_paddedDigits]

/-- A number of units is mentioned, if at all, on one line. -/
theorem oneLine_of_mem_units {unit t : String} {n : Int} (hunit : OneLine unit)
    (h : t ∈ if n ≠ 0 then [unit ++ toString n] else []) : OneLine t := by
  split at h
  · rw [List.mem_singleton.1 h]
    exact oneLine_append_iff.2 ⟨hunit, oneLine_repr_int n⟩
  · exact absurd h List.not_mem_nil

theorem oneLine_timedelta {parts : List String} (h : ∀ t ∈ parts, OneLine t) :
    OneLine ("datetime.timedelta(" ++
      (if parts.isEmpty then "0" else ", ".intercalate parts) ++ ")") := by
  simp only [oneLine_append_iff]
  refine ⟨⟨oneLine_words (by decide), ?_⟩, by decide⟩
  split
  · decide
  · exact oneLine_intercalate (by decide) h

theorem oneLine_spanText (seconds : Int) : OneLine (spanText seconds) :=
  oneLine_timedelta (List.forall_mem_append.2 ⟨fun _ => oneLine_of_mem_units (by decide),
    fun _ => oneLine_of_mem_units (by decide)⟩)

namespace Moment

variable (m : Moment)

theorem oneLine_twoDigits (n : Nat) : OneLine (twoDigits n) :=
  oneLine_ofList_iff.2 (Date.lineFeed_notMem_paddedDigits 2 n)

theorem oneLine_offsetText (seconds : Int) : OneLine (offsetText seconds) := by
  have hcolon : OneLine ":" := by decide
  simp only [offsetText, oneLine_append_iff, oneLine_twoDigits, hcolon, and_true]
  constructor
  · split <;> decide
  · split
    · decide
    · exact oneLine_append_iff.2 ⟨hcolon, oneLine_twoDigits _⟩

theorem oneLine_timeText : OneLine m.timeText := by
  have hcolon : OneLine ":" := by decide
  simp only [timeText, oneLine_append_iff, oneLine_twoDigits, hcolon, true_and]
  split
  · decide
  · exact oneLine_append_iff.2
      ⟨by decide, oneLine_ofList_iff.2 (Date.lineFeed_notMem_paddedDigits 6 _)⟩

theorem oneLine_textWith {mark : String} (hmark : OneLine mark) : OneLine (m.textWith mark) := by
  simp only [textWith, oneLine_append_iff]
  refine ⟨⟨⟨m.date.oneLine_text, hmark⟩, m.oneLine_timeText⟩, ?_⟩
  cases m.offset with
  | none => decide
  | some offset => exact oneLine_offsetText offset

/-- A moment is shown on one line. -/
theorem oneLine_shown : OneLine m.shown := by
  refine oneLine_append_iff.2 ⟨oneLine_append_iff.2
    ⟨oneLine_words (by decide), oneLine_intercalate (by decide) ?_⟩, by decide⟩
  simp only [List.forall_mem_append]
  refine ⟨⟨by simp, by simp, ?_⟩, ?_⟩
  · repeat' split
    all_goals simp
  · cases m.offset with
    | none => exact List.forall_mem_nil _
    | some offset =>
      refine List.forall_mem_singleton.2 ?_
      split
      · exact oneLine_words (by decide)
      · exact oneLine_append_iff.2
          ⟨oneLine_append_iff.2 ⟨oneLine_words (by decide), oneLine_spanText offset⟩, by decide⟩

end Moment

/-! ## Values -/

namespace Value

/-- Items are one line between brackets that are. -/
theorem oneLine_bracketed {opening closing : String} {items : List String}
    (hopening : OneLine opening) (hclosing : OneLine closing) (h : ∀ s ∈ items, OneLine s) :
    OneLine (opening ++ commaSeparated items ++ closing) := by
  simp only [oneLine_append_iff]
  exact ⟨⟨hopening, oneLine_intercalate (by decide) h⟩, hclosing⟩

mutual

/-- A value is shown on one line. -/
theorem oneLine_shown {v : Value} {s : String} (h : v.shown = .ok s) : OneLine s := by
  -- What could break a line is a text, and texts are quoted; a collection puts its marks around
  -- what its members are, by the lemmas on its rows.
  cases v with
  | null =>
    cases h
    decide
  | bool b =>
    cases h
    cases b <;> decide
  | int n =>
    rw [shown, integerText?] at h
    split at h
    · cases h
      exact oneLine_integerText n
    · cases h
  | float x =>
    cases h
    exact x.oneLine_text
  | text s =>
    cases h
    exact oneLine_quoted _
  | list xs =>
    obtain ⟨ts, hts, h⟩ := bind_eq_ok_iff.1 h
    cases h
    exact oneLine_bracketed (by decide) (by decide) (oneLine_shownAll hts)
  | map es =>
    obtain ⟨ts, hts, h⟩ := bind_eq_ok_iff.1 h
    cases h
    exact oneLine_bracketed (by decide) (by decide) (oneLine_shownPairs hts)
  | tuple xs =>
    obtain ⟨ts, hts, h⟩ := bind_eq_ok_iff.1 h
    have hitems := oneLine_shownAll hts
    split at h
    · cases h
      exact oneLine_append_iff.2 ⟨oneLine_append_iff.2 ⟨by decide, hitems _ (by simp)⟩, by decide⟩
    · cases h
      exact oneLine_bracketed (by decide) (by decide) hitems
  | set xs =>
    obtain ⟨ts, hts, h⟩ := bind_eq_ok_iff.1 h
    split at h
    · cases h
      decide
    · cases h
      exact oneLine_bracketed (by decide) (by decide) (oneLine_shownAll hts)
  | frozenset xs =>
    obtain ⟨ts, hts, h⟩ := bind_eq_ok_iff.1 h
    split at h
    · cases h
      decide
    · cases h
      exact oneLine_bracketed (by decide) (by decide) (oneLine_shownAll hts)
  | bytes bs =>
    cases h
    exact oneLine_quotedBytes bs
  | date d =>
    cases h
    exact oneLine_bracketed (oneLine_words (by decide)) (by decide) (by simp)
  | moment m =>
    cases h
    exact m.oneLine_shown
  | enclosing up isMap =>
    cases h
    cases isMap <;> decide

/-- Values in a row are each shown on one line. -/
theorem oneLine_shownAll {xs : List Value} {ts : List String} (h : shownAll xs = .ok ts) :
    ∀ t ∈ ts, OneLine t := by
  cases xs with
  | nil =>
    cases h
    exact List.forall_mem_nil _
  | cons x xs =>
    obtain ⟨t, ht, h⟩ := bind_eq_ok_iff.1 h
    obtain ⟨ts, hts, h⟩ := bind_eq_ok_iff.1 h
    cases h
    exact List.forall_mem_cons.2 ⟨oneLine_shown ht, oneLine_shownAll hts⟩

/-- Entries are each shown on one line. -/
theorem oneLine_shownPairs {es : List (Value × Value)} {ts : List String}
    (h : shownPairs es = .ok ts) : ∀ t ∈ ts, OneLine t := by
  cases es with
  | nil =>
    cases h
    exact List.forall_mem_nil _
  | cons e es =>
    obtain ⟨key, hkey, h⟩ := bind_eq_ok_iff.1 h
    obtain ⟨value, hvalue, h⟩ := bind_eq_ok_iff.1 h
    obtain ⟨ts, hts, h⟩ := bind_eq_ok_iff.1 h
    cases h
    refine List.forall_mem_cons.2 ⟨?_, oneLine_shownPairs hts⟩
    simp only [oneLine_append_iff]
    exact ⟨⟨oneLine_shown hkey, by decide⟩, oneLine_shown hvalue⟩

end

/-- What a value says by itself is one line, unless it is a text. -/
theorem oneLine_toText {v : Value} {s : String} (hkind : v.isString = false)
    (h : v.toText = .ok s) : OneLine s := by
  cases v with
  | text s => cases hkind
  | date d =>
    cases h
    exact d.oneLine_text
  | moment m =>
    cases h
    exact m.oneLine_textWith (by decide)
  | _ => exact oneLine_shown h

end Value

end Verdict
