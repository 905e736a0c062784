import Verdict.Proofs.Numeric.Reading
/-!
# Decimal digits in ASCII

Numbers are written in the ten ASCII digits, and they are read in digits of any script. This module
is about the texts that both sides share. Such digits have values as the digits of numerals
(`digitsOf_of_isDigit`), and digits that write a positive number are the digits that it is written
with, behind some zeros (`exists_zeros_of_isDigit`).
-/

namespace Verdict

open Text

namespace Text

/-- The digits of ASCII by their code points. -/
theorem toNat_of_isDigit {c : Char} (h : c.isDigit = true) : 48 ≤ c.toNat ∧ c.toNat ≤ 57 := by
  rwa [Char.isDigit_iff_toNat] at h

theorem isAsciiDigit_eq_isDigit (c : Char) : isAsciiDigit c = c.isDigit := by
  rw [Bool.eq_iff_iff, isAsciiDigit, Char.isDigit_iff_toNat, Bool.and_eq_true, decide_eq_true_eq,
    decide_eq_true_eq]
  rfl

theorem digitValue?_of_isDigit {c : Char} (h : c.isDigit = true) :
    digitValue? c = some (c.toNat - '0'.toNat) := by
  obtain ⟨hzero, hnine⟩ := toNat_of_isDigit h
  rw [digitValue?, decimalZeros, List.findSome?_cons, if_pos ⟨hzero, by omega⟩]
  rfl

theorem isDecimalDigit_of_isDigit {c : Char} (h : c.isDigit = true) : isDecimalDigit c = true := by
  rw [isDecimalDigit, digitValue?_of_isDigit h]
  rfl

/-- No digit of any script is a blank. -/
theorem isBlank_of_digitValue? {c : Char} {d : Nat} (h : digitValue? c = some d) :
    isBlank c = false := by
  have hranges : ∀ z ∈ decimalZeros, ∀ r ∈ blankRanges, r.2 < z ∨ z + 9 < r.1 := by decide
  obtain ⟨z, hz, hc, hd⟩ := exists_zero_of_digitValue? h
  rw [Bool.eq_false_iff, isBlank, Ne, Ranges.covers_iff]
  rintro ⟨r, hr, hlow, hhigh⟩
  have hrange := hranges z hz r hr
  omega

theorem isBlank_of_isDigit {c : Char} (h : c.isDigit = true) : isBlank c = false :=
  isBlank_of_digitValue? (digitValue?_of_isDigit h)

theorem value_lt_ten_of_isDigit {c : Char} (h : c.isDigit = true) : c.toNat - '0'.toNat < 10 :=
  digitValue?_lt_ten (digitValue?_of_isDigit h)

theorem digitChar_of_isDigit {c : Char} (h : c.isDigit = true) :
    (c.toNat - '0'.toNat).digitChar = c := by
  obtain ⟨hzero, hnine⟩ := toNat_of_isDigit h
  have hcode : '0'.toNat = 48 := rfl
  apply Char.toNat_inj.1
  rw [Nat.toNat_digitChar_of_lt_ten (value_lt_ten_of_isDigit h)]
  omega

/-! ## Written numbers -/

variable {cs : List Char}

/-- Digits behind those of a positive number are the digits of a larger number. -/
theorem toDigits_append {n : Nat} (hn : 0 < n) (hdigits : ∀ c ∈ cs, c.isDigit = true) :
    Nat.toDigits 10 n ++ cs = Nat.toDigits 10 (Nat.ofDigitChars 10 cs n) := by
  induction cs generalizing n with
  | nil => rw [List.append_nil, Nat.ofDigitChars_nil]
  | cons c cs ih =>
    obtain ⟨hc, hcs⟩ := List.forall_mem_cons.1 hdigits
    have hd := value_lt_ten_of_isDigit hc
    have hstep : Nat.toDigits 10 n ++ [c] = Nat.toDigits 10 (10 * n + (c.toNat - '0'.toNat)) := by
      rw [← Nat.toDigits_append_toDigits (by decide) hn hd, Nat.toDigits_of_lt_base hd,
        digitChar_of_isDigit hc]
    rw [Nat.ofDigitChars_cons, ← ih (by omega) hcs, ← hstep, List.append_assoc,
      List.singleton_append]

/-- Digits that write a positive number are its digits behind some zeros. -/
theorem exists_zeros_of_isDigit (hdigits : ∀ c ∈ cs, c.isDigit = true)
    (hpos : 0 < Nat.ofDigitChars 10 cs 0) :
    ∃ zeros, cs = List.replicate zeros '0' ++ Nat.toDigits 10 (Nat.ofDigitChars 10 cs 0) := by
  induction cs with
  | nil => exact absurd hpos (Nat.lt_irrefl 0)
  | cons c cs ih =>
    obtain ⟨hc, hcs⟩ := List.forall_mem_cons.1 hdigits
    have hvalue : Nat.ofDigitChars 10 (c :: cs) 0 =
        Nat.ofDigitChars 10 cs (c.toNat - '0'.toNat) := by
      rw [Nat.ofDigitChars_cons, Nat.mul_zero, Nat.zero_add]
    rw [hvalue] at hpos ⊢
    by_cases hzero : c.toNat - '0'.toNat = 0
    · -- one zero more
      have hchar : c = '0' := by rw [← digitChar_of_isDigit hc, hzero]; rfl
      rw [hzero] at hpos ⊢
      obtain ⟨zeros, heq⟩ := ih hcs hpos
      refine ⟨zeros + 1, ?_⟩
      rw [List.replicate_succ, List.cons_append, ← heq, hchar]
    · -- the first digit of the number
      refine ⟨0, ?_⟩
      rw [← toDigits_append (Nat.pos_of_ne_zero hzero) hcs,
        Nat.toDigits_of_lt_base (value_lt_ten_of_isDigit hc), digitChar_of_isDigit hc]
      rfl

end Text

namespace Numeral

variable {cs : List Char}

/-- The values of ASCII digits. -/
def asciiValues (cs : List Char) : List Nat := cs.map fun c => c.toNat - '0'.toNat

theorem digitsOf_of_isDigit (hdigits : ∀ c ∈ cs, c.isDigit = true) :
    DigitsOf (asciiValues cs) cs := by
  rw [DigitsOf, asciiValues, List.map_map]
  exact List.map_congr_left fun c hc => digitValue?_of_isDigit (hdigits c hc)

/-- What digits write in a base is their value in that base. -/
theorem ofDigits_asciiValues (base : Nat) (cs : List Char) :
    ofDigits base (asciiValues cs) = Nat.ofDigitChars base cs 0 := by
  rw [ofDigits, asciiValues, List.foldl_map, Nat.ofDigitChars_eq_foldl]

theorem isDigit_of_mem_toDigits {n : Nat} : ∀ c ∈ Nat.toDigits 10 n, c.isDigit = true :=
  fun _ hc => Nat.isDigit_of_mem_toDigits (by decide) (by decide) hc

theorem digitsOf_toDigits (n : Nat) :
    DigitsOf (asciiValues (Nat.toDigits 10 n)) (Nat.toDigits 10 n) :=
  digitsOf_of_isDigit isDigit_of_mem_toDigits

theorem length_asciiValues (cs : List Char) : (asciiValues cs).length = cs.length :=
  List.length_map _

theorem asciiValues_append (cs ds : List Char) :
    asciiValues (cs ++ ds) = asciiValues cs ++ asciiValues ds :=
  List.map_append

theorem asciiValues_eq_nil_iff : asciiValues cs = [] ↔ cs = [] :=
  List.map_eq_nil_iff

/-! ## The characters of a numeral -/

/-- The characters of numerals that are no digits. -/
def marks : List Char := ['+', '-', '.', 'e', 'E']

theorem DigitsOf.isDecimalDigit {ds : List Nat} (h : DigitsOf ds cs) :
    ∀ c ∈ cs, isDecimalDigit c = true :=
  exists_digitsOf_iff.1 ⟨ds, h⟩

theorem SignOf.subset_marks {negative : Bool} (h : SignOf negative cs) : cs ⊆ marks := by
  cases h <;> decide

theorem FractionOf.mem_cases {o : Option (List Nat)} (h : FractionOf o cs) :
    ∀ c ∈ cs, Text.isDecimalDigit c = true ∨ c ∈ marks := by
  cases h with
  | absent => exact List.forall_mem_nil _
  | given digits =>
    exact List.forall_mem_cons.2 ⟨.inr (by decide), fun c hc => .inl (digits.isDecimalDigit c hc)⟩

theorem ExponentOf.mem_cases {o : Option (Bool × List Nat)} (h : ExponentOf o cs) :
    ∀ c ∈ cs, Text.isDecimalDigit c = true ∨ c ∈ marks := by
  cases h with
  | absent => exact List.forall_mem_nil _
  | given mark signed digits =>
    refine List.forall_mem_cons.2 ⟨.inr ?_, List.forall_mem_append.2
      ⟨fun c hc => .inr (signed.subset_marks hc), fun c hc => .inl (digits.isDecimalDigit c hc)⟩⟩
    rcases mark with rfl | rfl <;> decide

/-- Nothing but digits, signs, points and marks of exponents stands in a numeral. -/
theorem Writes.mem_cases {n : Numeral} (h : n.Writes cs) :
    ∀ c ∈ cs, Text.isDecimalDigit c = true ∨ c ∈ marks := by
  obtain ⟨sign, whole, fraction, exponent, rfl, signed, digits, pointed, raised, -⟩ := h
  simp only [List.forall_mem_append]
  exact ⟨fun c hc => .inr (signed.subset_marks hc), fun c hc => .inl (digits.isDecimalDigit c hc),
    pointed.mem_cases, raised.mem_cases⟩

theorem Writes.notMem {n : Numeral} (h : n.Writes cs) {c : Char}
    (hdigit : Text.isDecimalDigit c = false) (hmark : c ∉ marks) : c ∉ cs := by
  intro hc
  rcases h.mem_cases c hc with hother | hother
  · rw [hother] at hdigit
    cases hdigit
  · exact hmark hother

/-- No blank stands in a numeral. -/
theorem Writes.isBlank_eq_false {n : Numeral} (h : n.Writes cs) : ∀ c ∈ cs, isBlank c = false := by
  have hmarks : marks.all (fun c => !isBlank c) = true := by decide
  intro c hc
  rcases h.mem_cases c hc with hdigit | hmark
  · obtain ⟨d, hd⟩ := Option.isSome_iff_exists.1 hdigit
    exact isBlank_of_digitValue? hd
  · exact Bool.not_eq_eq_eq_not.1 (List.all_eq_true.1 hmarks c hmark)

/-- A numeral is read from its text as it stands. -/
theorem Writes.ofText? {n : Numeral} {s : String} (h : n.Writes s.toList) :
    Number.ofText? s = some (Number.ofNumeral n) := by
  apply Number.ofText?_of_numeral
  rw [trimChars_of_forall h.isBlank_eq_false, ofChars?_eq_some_iff]
  exact h

/-! ## The texts of integers -/

/-- The characters in front of a number: a minus if it is negative. -/
def minus (negative : Bool) : List Char := if negative then ['-'] else []

theorem signOf_minus (negative : Bool) : SignOf negative (minus negative) := by
  cases negative with
  | true => exact .minus
  | false => exact .absent

/-- An integer is written as a numeral without point and exponent. -/
theorem writes_integerText (n : Int) :
    (⟨decide (n < 0), asciiValues (Nat.toDigits 10 n.natAbs), none, none⟩ : Numeral).Writes
      (integerText n).toList := by
  refine ⟨_, _, [], [], ?_, signOf_minus _, digitsOf_toDigits _, .absent, .absent, ?_⟩
  · rw [integerText, String.toList_ofList, List.append_nil, List.append_nil]
    simp only [minus, decide_eq_true_eq]
  · rintro ⟨hnil, -⟩
    exact Nat.toDigits_ne_nil (asciiValues_eq_nil_iff.1 hnil)

end Numeral

/-- The bound is the least number with more digits than the limit. -/
theorem lt_longBound_iff {n : Nat} : n < longBound ↔ Binary64.digitCount n ≤ digitLimit := by
  have hpos : 0 < digitLimit := by decide
  unfold longBound
  generalize digitLimit = limit at hpos ⊢
  exact (Binary64.digitCount_le_iff hpos).symm

/-- **The text of an integer is read as the integer**, if it has no more digits than the limit. -/
theorem Number.ofText?_integerText {n : Int} (hn : n.natAbs < longBound) :
    ofText? (integerText n) = some (.int n) := by
  have hshort := (Numeral.length_asciiValues _).trans_le (lt_longBound_iff.1 hn)
  rw [(Numeral.writes_integerText n).ofText?, ofNumeral_of_short rfl hshort, Numeral.toInt,
    Numeral.ofDigits_asciiValues, Nat.ofDigitChars_ten_toDigits]
  congr 2
  by_cases hsign : n < 0
  · rw [if_pos (decide_eq_true hsign)]
    omega
  · rw [if_neg fun h => hsign (of_decide_eq_true h)]
    omega

end Verdict
