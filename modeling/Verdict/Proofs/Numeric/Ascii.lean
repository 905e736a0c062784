import Verdict.Proofs.Numeric.Digits
import Verdict.Proofs.Text.Case
/-!
# Numerals in ASCII

In ASCII the digits of a numeral are the ten digits, and a numeral is taken apart into a sign and a
numeral without one. The readers of integers take a row of such digits as it stands, in base ten and
in every smaller base that has all of them (`integer_of_isDigit`). Read in base eight instead of ten
a row of digits keeps its value below eight and loses some of it from eight on
(`eight_or_ten`).
-/

namespace Verdict

open Text

namespace Text

/-- Only the first ten digits of Unicode are in ASCII. -/
theorem isDigit_of_ascii {c : Char} (hascii : c.toNat < 128) (h : isDecimalDigit c = true) :
    c.isDigit = true := by
  have hzeros : ∀ z ∈ decimalZeros, z = 48 ∨ 128 ≤ z := by decide
  obtain ⟨d, hd⟩ := Option.isSome_iff_exists.1 h
  obtain ⟨z, hz, hc, hnine⟩ := exists_zero_of_digitValue? hd
  have hdigit : 48 ≤ c.toNat ∧ c.toNat ≤ 57 := by
    rcases hzeros z hz with rfl | hz <;> omega
  exact Char.isDigit_iff_toNat.2 hdigit

/-- No letter is a digit, so lowering letters neither makes nor unmakes a digit. -/
theorem digitValue?_toLower (c : Char) : digitValue? c.toLower = digitValue? c :=
  apply_toLower (by decide) c

/-! ## Base eight and base ten -/

/-- The digits of base eight are digits. -/
theorem isDigit_of_le_seven {c : Char} (h : '0' ≤ c ∧ c ≤ '7') : c.isDigit = true := by
  have hrange : 48 ≤ c.toNat ∧ c.toNat ≤ 55 := h
  exact Char.isDigit_iff_toNat.2 ⟨hrange.1, Nat.le_trans hrange.2 (by decide)⟩

theorem value_lt_of_le_seven {c : Char} (h : '0' ≤ c ∧ c ≤ '7') : c.toNat - '0'.toNat < 8 := by
  have hrange : 48 ≤ c.toNat ∧ c.toNat ≤ 55 := h
  have hzero : '0'.toNat = 48 := rfl
  omega

/-- Whether two numbers are the same below eight, or the second one is at least eight and the first
one is below it. -/
def SameOrLess (a b : Nat) : Prop := a = b ∧ b < 8 ∨ a < b ∧ 8 ≤ b

/-- More digits below eight behind a row of digits. -/
theorem SameOrLess.ofDigitChars {ds : List Char} (hds : ∀ c ∈ ds, c.toNat - '0'.toNat < 8)
    {a b : Nat} (h : SameOrLess a b) :
    SameOrLess (Nat.ofDigitChars 8 ds a) (Nat.ofDigitChars 10 ds b) := by
  induction ds generalizing a b with
  | nil => rwa [Nat.ofDigitChars_nil, Nat.ofDigitChars_nil]
  | cons c ds ih =>
    obtain ⟨hc, hds⟩ := List.forall_mem_cons.1 hds
    rw [Nat.ofDigitChars_cons, Nat.ofDigitChars_cons]
    refine ih hds ?_
    unfold SameOrLess at h ⊢
    omega

/-- **Base eight instead of ten.** A row of digits below eight writes the same number in both bases
if that is below eight, and a smaller one in base eight otherwise. -/
theorem eight_or_ten {ds : List Char} (hds : ∀ c ∈ ds, c.toNat - '0'.toNat < 8) :
    SameOrLess (Nat.ofDigitChars 8 ds 0) (Nat.ofDigitChars 10 ds 0) :=
  SameOrLess.ofDigitChars hds (.inl ⟨rfl, by decide⟩)

end Text

namespace Binary64

theorem neg_ofUnits (num den : Nat) : (ofUnits false num den).neg = ofUnits true num den := by
  unfold ofUnits
  split
  · rfl
  · rfl

theorem neg_zero : (zero false).neg = zero true := rfl

theorem neg_infinite : (infinite false).neg = infinite true := rfl

/-- Rounding takes no account of the sign, which can be put on last. -/
theorem neg_ofDecimal (coefficient : Nat) (exponent : Int) :
    (ofDecimal false coefficient exponent).neg = ofDecimal true coefficient exponent := by
  simp only [ofDecimal, apply_ite neg, ofRatio, neg_ofUnits, neg_zero, neg_infinite]

end Binary64

namespace Numeral

variable {cs : List Char} {ds : List Nat} {n : Numeral}

theorem toBinary64_of_sign (n : Numeral) :
    (if n.negative then (toBinary64 ⟨false, n.whole, n.fraction, n.exponent⟩).neg
      else toBinary64 ⟨false, n.whole, n.fraction, n.exponent⟩) = n.toBinary64 := by
  obtain ⟨negative, whole, fraction, exponent⟩ := n
  simp only [toBinary64, coefficient, scale, Binary64.neg_ofDecimal]
  cases negative with
  | false => rw [if_neg Bool.false_ne_true]
  | true => rw [if_pos rfl]

theorem DigitsOf.isDigit (h : DigitsOf ds cs) (hascii : ∀ c ∈ cs, c.toNat < 128) :
    ∀ c ∈ cs, c.isDigit = true :=
  fun c hc => isDigit_of_ascii (hascii c hc) (h.isDecimalDigit c hc)

theorem DigitsOf.eq_asciiValues (h : DigitsOf ds cs) (hascii : ∀ c ∈ cs, c.toNat < 128) :
    ds = asciiValues cs := by
  rw [← h.filterMap_eq, (digitsOf_of_isDigit (h.isDigit hascii)).filterMap_eq]

/-! ## Parts of a numeral -/

/-- A digit stands among the first three characters of a numeral. -/
theorem Writes.exists_digit (h : n.Writes cs) : ∃ c ∈ cs.take 3, Text.isDecimalDigit c = true := by
  obtain ⟨negative, ws, fs, es⟩ := n
  obtain ⟨sign, whole, fraction, exponent, rfl, signed, digits, pointed, -, hdigit⟩ := h
  -- behind the sign one stands among the first two
  obtain ⟨c, hmem, hc⟩ : ∃ c ∈ (whole ++ (fraction ++ exponent)).take 2,
      Text.isDecimalDigit c = true := by
    cases whole with
    | cons c whole => exact ⟨c, List.mem_cons_self, digits.isDecimalDigit c List.mem_cons_self⟩
    | nil =>
      cases pointed with
      | absent => exact absurd ⟨digits.nil_iff.2 rfl, .inl rfl⟩ hdigit
      | @given ds ps behind =>
        cases ps with
        | nil =>
          exact absurd ⟨digits.nil_iff.2 rfl, .inr (congrArg some (behind.nil_iff.2 rfl))⟩ hdigit
        | cons c ps =>
          exact ⟨c, List.mem_cons_of_mem _ List.mem_cons_self,
            behind.isDecimalDigit c List.mem_cons_self⟩
  refine ⟨c, ?_, hc⟩
  cases signed with
  | absent => exact (List.take_subset_take_left _ (by decide)) hmem
  | plus => exact List.mem_cons_of_mem _ hmem
  | minus => exact List.mem_cons_of_mem _ hmem

/-- Without a sign in front there is none to take off. -/
theorem sign_of_ne (hplus : ∀ rest, cs = '+' :: rest → False)
    (hminus : ∀ rest, cs = '-' :: rest → False) : sign cs = (false, cs) := by
  unfold sign
  split
  · exact (hplus _ rfl).elim
  · exact (hminus _ rfl).elim
  · rfl

theorem sign_subset (cs : List Char) : (sign cs).2 ⊆ cs := by
  obtain ⟨s, hcs, -⟩ := exists_of_sign cs
  intro c hc
  rw [hcs]
  exact List.mem_append_right s hc

/-- Behind its sign a numeral is a numeral without a sign. -/
theorem Writes.behind_sign (h : n.Writes cs) : (sign cs).1 = n.negative ∧
    Writes ⟨false, n.whole, n.fraction, n.exponent⟩ (sign cs).2 := by
  obtain ⟨s, whole, fraction, exponent, rfl, signed, digits, pointed, raised, hdigit⟩ := h
  have hbegins : Begins (fun c => c ≠ '+' ∧ c ≠ '-') (whole ++ (fraction ++ exponent)) := by
    refine begins_digits digits not_sign_of_digit
      (begins_fraction pointed (by decide) ((begins_exponent raised).mono ?_))
    rintro c (rfl | rfl) <;> decide
  rw [sign_append signed hbegins]
  exact ⟨rfl, [], whole, fraction, exponent, rfl, .absent, digits, pointed, raised, hdigit⟩

/-- Behind the sign of a whole numeral there are its digits. -/
theorem Writes.digits_behind_sign (h : n.Writes cs) (hwhole : n.isWhole = true) :
    DigitsOf n.whole (sign cs).2 ∧ (sign cs).2 ≠ [] := by
  obtain ⟨s, whole, rfl, signed, digits, hne⟩ :=
    exists_of_isWhole (ofChars?_eq_some_iff.2 h) hwhole
  rw [sign_append signed (begins_no_sign digits)]
  exact ⟨digits, fun hnil => hne (digits.nil_iff.2 hnil)⟩

/-- A numeral that has nothing but digits behind its sign is whole. -/
theorem Writes.isWhole_of_forall (h : n.Writes cs)
    (hall : ∀ c ∈ (sign cs).2, Text.isDecimalDigit c = true) : n.isWhole = true := by
  obtain ⟨ds, hds⟩ := exists_digitsOf_iff.2 hall
  have hread : digits ((sign cs).2 ++ []) = (ds, []) := digits_append hds nofun
  rw [List.append_nil] at hread
  obtain ⟨-, -, hiff⟩ := front_of_ofChars? (ofChars?_eq_some_iff.2 h)
  rw [hiff, hread]

/-- The digits in front of the point are among the digits of the text. -/
theorem Writes.length_whole_le (h : n.Writes cs) : n.whole.length ≤ (digitValues cs).length := by
  obtain ⟨s, whole, fraction, exponent, rfl, -, digits, -⟩ := h
  rw [digitValues, List.filterMap_append, List.filterMap_append, digits.filterMap_eq,
    List.length_append, List.length_append]
  omega

/-- A whole numeral in ASCII writes what its digits write. -/
theorem Writes.toInt_eq (h : n.Writes cs) (hascii : ∀ c ∈ cs, c.toNat < 128)
    (hwhole : n.isWhole = true) :
    n.toInt = if n.negative then -(Nat.ofDigitChars 10 (sign cs).2 0 : Int)
      else Nat.ofDigitChars 10 (sign cs).2 0 := by
  have hvalues := (h.digits_behind_sign hwhole).1.eq_asciiValues fun c hc =>
    hascii c (sign_subset cs hc)
  rw [toInt, hvalues, ofDigits_asciiValues]

/-- No numeral has a minus behind its first digits. -/
theorem not_writes_minus (h : DigitsOf ds cs) (hne : cs ≠ []) (rest : List Char) :
    ¬ n.Writes (cs ++ '-' :: rest) := by
  intro hwrites
  have hbegins : Begins (fun c => c ≠ '+' ∧ c ≠ '-') (cs ++ '-' :: rest) := by
    cases cs with
    | nil => exact absurd rfl hne
    | cons c cs =>
      rintro d ⟨⟩
      exact not_sign_of_digit _ (h.isDecimalDigit _ List.mem_cons_self)
  have hsign : sign (cs ++ '-' :: rest) = (false, cs ++ '-' :: rest) :=
    sign_append .absent hbegins
  have hdigits : digits (cs ++ '-' :: rest) = (ds, '-' :: rest) := by
    refine digits_append h ?_
    rintro c ⟨⟩
    decide
  -- the reader stops at the hyphen, where only a point or an exponent may stand
  have hread := ofChars?_eq_some_iff.2 hwrites
  unfold ofChars? at hread
  rw [hsign] at hread
  dsimp only at hread
  rw [hdigits] at hread
  dsimp only at hread
  split at hread
  · cases hread
  · cases hread

/-- Letter case makes no difference to a numeral. -/
theorem Writes.map_toLower (h : n.Writes cs) : n.Writes (cs.map Char.toLower) := by
  have hdigits : ∀ {ds : List Nat} {cs : List Char}, DigitsOf ds cs →
      DigitsOf ds (cs.map Char.toLower) := by
    intro ds cs h
    rw [DigitsOf, List.map_map, ← h]
    exact List.map_congr_left fun c _ => digitValue?_toLower c
  have hsign : ∀ {b : Bool} {cs : List Char}, SignOf b cs → cs.map Char.toLower = cs := by
    intro b cs h
    cases h <;> rfl
  obtain ⟨negative, ws, fs, es⟩ := n
  obtain ⟨s, whole, fraction, exponent, rfl, signed, digits, pointed, raised, hdigit⟩ := h
  -- part by part: digits keep their value, signs and points have no case, and both marks are one
  refine ⟨s, whole.map Char.toLower, fraction.map Char.toLower, exponent.map Char.toLower, ?_,
    signed, hdigits digits, ?_, ?_, hdigit⟩
  · simp only [List.map_append, hsign signed]
  · cases pointed with
    | absent => exact .absent
    | given behind => exact .given (hdigits behind)
  · cases raised with
    | absent => exact .absent
    | given mark sign ds hne =>
      rw [List.map_cons, List.map_append, hsign sign]
      exact .given (mark.elim (fun h => .inl (by rw [h]; rfl)) fun h => .inl (by rw [h]; rfl)) sign
        (hdigits ds) hne

end Numeral

/-! ## The readers of literals -/

namespace Literal

variable {ds : List Char} {base : Nat}

theorem core_of_forall {s : String} (h : ∀ c ∈ s.toList, isBlank c = false) :
    core s = s.toList := by
  have htrim : trim s = s := by
    rw [← String.toList_inj, toList_trim, trimChars_of_forall h]
  rw [← trimChars_of_forall h, ← core_trim, htrim]

/-- The mark of a base is a letter, and no digit is taken for it. -/
theorem afterMark_of_isDigit (hds : ∀ c ∈ ds, c.isDigit = true) : afterMark base ds = ds := by
  have hletter : ∀ m ∈ baseMark? base, m.isDigit = false := by
    unfold baseMark?
    split
    · exact fun m h => by cases h; rfl
    · exact fun m h => by cases h; rfl
    · exact fun m h => by cases h; rfl
    · exact nofun
  unfold afterMark
  split
  · next c cs =>
    refine if_neg fun hmark => ?_
    have hc : c.isDigit = true := hds c (List.mem_cons_of_mem _ List.mem_cons_self)
    have hlow : c.toLower.isDigit = c.isDigit := apply_toLower (by decide) c
    rw [← hlow, hletter _ hmark] at hc
    cases hc
  · rfl

/-- ASCII digits below the base are read as what they write. -/
theorem digitsIn_of_isDigit (hds : ∀ c ∈ ds, c.isDigit = true)
    (hbase : ∀ c ∈ ds, c.toNat - '0'.toNat < base) : digitsIn base ds = Numeral.asciiValues ds := by
  induction ds with
  | nil => rfl
  | cons c ds ih =>
    obtain ⟨hc, hds⟩ := List.forall_mem_cons.1 hds
    obtain ⟨hvalue, hbase⟩ := List.forall_mem_cons.1 hbase
    rw [digitsIn, baseDigit?_of_digit (digitValue?_of_isDigit hc)]
    dsimp only
    rw [if_pos hvalue, ih hds hbase]
    rfl

/-- **Digits are read in a base as they stand**, if the base has all of them and they are not too
many. -/
theorem integer_of_isDigit (hds : ∀ c ∈ ds, c.isDigit = true) (hne : ds ≠ [])
    (hbase : ∀ c ∈ ds, c.toNat - '0'.toNat < base) (hshort : base = 10 → ds.length ≤ digitLimit) :
    integer base (String.ofList ds) = .ok (Nat.ofDigitChars base ds 0 : Int) := by
  have hcore : core (String.ofList ds) = ds := by
    rw [core_of_forall, String.toList_ofList]
    rw [String.toList_ofList]
    exact fun c hc => isBlank_of_isDigit (hds c hc)
  have hsign : Numeral.sign ds = (false, ds) :=
    Numeral.sign_append .absent (Numeral.begins_no_sign (Numeral.digitsOf_of_isDigit hds))
  have hlong : ¬ (base = 10 ∧ digitLimit < (Numeral.asciiValues ds).length) := by
    rw [Numeral.length_asciiValues]
    exact fun h => Nat.not_lt.2 (hshort h.1) h.2
  have htaken : ¬ ((Numeral.asciiValues ds).isEmpty = true ∨
      (Numeral.asciiValues ds).length ≠ ds.length) := by
    rw [List.isEmpty_iff, Numeral.asciiValues_eq_nil_iff, Numeral.length_asciiValues]
    exact fun h => h.elim hne fun h => h rfl
  -- no blanks, no sign and no mark of a base: all that is left are the digits
  unfold integer
  dsimp only
  rw [hcore, hsign]
  dsimp only
  rw [afterMark_of_isDigit hds, digitsIn_of_isDigit hds hbase, if_neg hlong, if_neg htaken,
    Numeral.ofDigits_asciiValues]
  rfl

end Literal

end Verdict
