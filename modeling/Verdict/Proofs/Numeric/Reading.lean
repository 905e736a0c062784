import Mathlib.Data.Nat.Digits.Defs
import Verdict.Numeric.Literal
import Verdict.Proofs.Numeric.Grammar
import Verdict.Proofs.Numeric.Rounding
import Verdict.Proofs.Text.Trimming
import Verdict.Value.Comparison
/-!
# How a text is read as a number

A text is read without the blanks at its ends. What is left is a number when it is a numeral, and
then the reader of integers has the first try: it takes the numerals without point and exponent,
and of these the ones with no more digits than the limit. Whatever it refuses, the reader of
floating-point numbers takes, with the number that the exact value of the numeral is rounded to. So
the three of them agree about every text, and on a numeral one of the two readers gives an answer
(`ofText?_of_attempts`).
-/

namespace Verdict

open Text

/-! ## Digits -/

namespace Text

/-- A digit stands as many places behind the zero of its script as its value says. -/
theorem exists_zero_of_digitValue? {c : Char} {d : Nat} (h : digitValue? c = some d) :
    ∃ z ∈ decimalZeros, c.toNat = z + d ∧ d ≤ 9 := by
  obtain ⟨z, hz, hd⟩ := List.exists_of_findSome?_eq_some h
  split at hd
  · cases hd
    exact ⟨z, hz, by omega, by omega⟩
  · cases hd

/-- No letter is a digit, so that digits keep their values in a larger base. -/
theorem baseDigit?_of_digit {c : Char} {d : Nat} (h : digitValue? c = some d) :
    baseDigit? c = some d := by
  have hletters : ∀ z ∈ decimalZeros, z + 9 < 65 ∨ 122 < z := by decide
  obtain ⟨z, hz, hc, hd⟩ := exists_zero_of_digitValue? h
  have hzero := hletters z hz
  rw [baseDigit?, if_neg (by omega), if_neg (by omega), h]

/-- What digits write is their positional value. -/
theorem ofDigits_eq (base : Nat) (ds : List Nat) :
    ofDigits base ds = Nat.ofDigits base ds.reverse := by
  rw [Nat.ofDigits_eq_foldr, List.foldr_reverse, ofDigits]
  congr 1
  funext n d
  rw [Nat.add_comm, Nat.cast_id]

end Text

/-! ## Whole numerals -/

namespace Numeral

variable {cs : List Char} {n : Numeral}

/-- The values of the digits in a text. -/
def digitValues (cs : List Char) : List Nat := cs.filterMap digitValue?

/-- The factor that the sign in front of a text stands for. -/
def signFactor (cs : List Char) : Int := if cs.head? = some '-' then -1 else 1

/-- The number whose decimal digits, from the left, have the given values. -/
def positional (ds : List Nat) : Nat := Nat.ofDigits 10 ds.reverse

/-- The power of ten that an exponent names; without an exponent it is the power 0. -/
def power (n : Numeral) : ℤ :=
  match n.exponent with
  | none => 0
  | some (negative, ds) => if negative then -positional ds else positional ds

/-- The magnitude that a numeral writes: its whole part and its fraction, times a power of ten. -/
def magnitude (n : Numeral) : ℚ :=
  (positional n.whole + positional (n.fraction.getD []) / 10 ^ (n.fraction.getD []).length) *
    10 ^ n.power

/-- Whether a text is a numeral without point and exponent, of no more digits than the limit. -/
def IsShortWhole (cs : List Char) : Prop :=
  cs ∈ wholeNumerals ∧ (digitValues cs).length ≤ digitLimit

theorem isWhole_eq_true_iff : n.isWhole = true ↔ n.fraction = none ∧ n.exponent = none := by
  rw [isWhole, Bool.and_eq_true, Option.isNone_iff_eq_none, Option.isNone_iff_eq_none]

/-- The parts that stand in front are read first, and a whole numeral leaves nothing to read. -/
theorem front_of_ofChars? (h : ofChars? cs = some n) :
    n.negative = (sign cs).1 ∧ n.whole = (digits (sign cs).2).1 ∧
      (n.isWhole = true ↔ (digits (sign cs).2).2 = []) := by
  unfold ofChars? at h
  dsimp only at h
  split at h
  · cases h
  · obtain ⟨e, he, rfl⟩ := Option.map_eq_some_iff.1 h
    refine ⟨rfl, rfl, ?_⟩
    rw [isWhole_eq_true_iff]
    dsimp only
    obtain ⟨fraction, hrest, hfraction⟩ := exists_of_point (digits (sign cs).2).2
    have hexponent := exponent?_eq_some_iff.1 he
    -- a whole numeral ends behind its digits
    constructor
    · rintro ⟨hpoint, rfl⟩
      rw [hpoint] at hfraction
      generalize (point (digits (sign cs).2).2).2 = exponent at hexponent hrest
      cases hfraction
      cases hexponent
      exact hrest
    · intro hnil
      rw [hnil] at he ⊢
      exact ⟨rfl, (Option.some.inj he).symm⟩

/-- A whole numeral is a sign and digits. -/
theorem exists_of_isWhole (h : ofChars? cs = some n) (hwhole : n.isWhole = true) :
    ∃ s whole, cs = s ++ whole ∧ SignOf n.negative s ∧ DigitsOf n.whole whole ∧ n.whole ≠ [] := by
  obtain ⟨s, whole, fraction, exponent, rfl, signed, digits, hfraction, hexponent, hdigit⟩ :=
    ofChars?_eq_some_iff.1 h
  obtain ⟨hpoint, hmark⟩ := isWhole_eq_true_iff.1 hwhole
  rw [hpoint] at hfraction
  rw [hmark] at hexponent
  cases hfraction
  cases hexponent
  exact ⟨s, whole, by simp only [List.append_nil], signed, digits,
    fun hnil => hdigit ⟨hnil, .inl hpoint⟩⟩

theorem whole_ne_nil (h : ofChars? cs = some n) (hwhole : n.isWhole = true) : n.whole ≠ [] := by
  obtain ⟨-, -, -, -, -, hne⟩ := exists_of_isWhole h hwhole
  exact hne

/-- The whole numerals are numerals, and they are written with a sign and digits alone. -/
theorem exists_of_wholeNumerals (h : cs ∈ wholeNumerals) :
    ∃ n, ofChars? cs = some n ∧ n.isWhole = true := by
  rw [wholeNumerals, Language.mem_mul] at h
  simp only [mem_someDigits, ← exists_digitsOf_iff, ← exists_signOf_iff] at h
  obtain ⟨s, ⟨b, signed⟩, whole, ⟨hne, ds, digits⟩, rfl⟩ := h
  have hwrites : (⟨b, ds, none, none⟩ : Numeral).Writes (s ++ whole) :=
    ⟨s, whole, [], [], by simp only [List.append_nil], signed, digits, .absent, .absent,
      fun hnone => hne (digits.nil_iff.1 hnone.1)⟩
  exact ⟨_, ofChars?_eq_some_iff.2 hwrites, rfl⟩

/-- A numeral is whole when its text is one of the whole numerals. -/
theorem isWhole_iff (h : ofChars? cs = some n) : n.isWhole = true ↔ cs ∈ wholeNumerals := by
  constructor
  · intro hwhole
    obtain ⟨s, whole, rfl, signed, digits, hne⟩ := exists_of_isWhole h hwhole
    have hsign : s ∈ atMostOne signs := exists_signOf_iff.1 ⟨_, signed⟩
    have hdigits : whole ∈ someDigits :=
      mem_someDigits.2 ⟨fun hnil => hne (digits.nil_iff.2 hnil), exists_digitsOf_iff.1 ⟨_, digits⟩⟩
    exact Language.append_mem_mul hsign hdigits
  · intro hmem
    obtain ⟨m, hm, hwhole⟩ := exists_of_wholeNumerals hmem
    rw [h] at hm
    cases hm
    exact hwhole

/-- A sign is told by the first character, since no digit is a minus. -/
theorem signFactor_append {b : Bool} {s whole : List Char} {ds : List Nat} (signed : SignOf b s)
    (digits : DigitsOf ds whole) : signFactor (s ++ whole) = if b then -1 else 1 := by
  cases signed with
  | plus => rfl
  | minus => rfl
  | absent => exact if_neg fun hminus => (begins_no_sign digits '-' hminus).2 rfl

theorem digitValues_append {b : Bool} {s whole : List Char} {ds : List Nat} (signed : SignOf b s)
    (digits : DigitsOf ds whole) : digitValues (s ++ whole) = ds := by
  have hsign : s.filterMap digitValue? = [] := by cases signed <;> decide
  rw [digitValues, List.filterMap_append, hsign, List.nil_append, digits.filterMap_eq]

/-- A whole numeral has its digits and its value from the text. -/
theorem values_of_isWhole (h : ofChars? cs = some n) (hwhole : n.isWhole = true) :
    n.whole = digitValues cs ∧ n.toInt = signFactor cs * positional (digitValues cs) := by
  obtain ⟨s, whole, rfl, signed, digits, -⟩ := exists_of_isWhole h hwhole
  rw [digitValues_append signed digits, signFactor_append signed digits, toInt, ofDigits_eq,
    positional]
  refine ⟨rfl, ?_⟩
  cases n.negative with
  | true => rw [if_pos rfl, if_pos rfl, neg_one_mul]
  | false => rw [if_neg Bool.false_ne_true, if_neg Bool.false_ne_true, one_mul]

/-- A numeral is short and whole when its text is. -/
theorem isShortWhole_iff (h : ofChars? cs = some n) :
    IsShortWhole cs ↔ n.isWhole = true ∧ n.whole.length ≤ digitLimit := by
  rw [IsShortWhole, ← isWhole_iff h]
  constructor
  · rintro ⟨hwhole, hshort⟩
    rw [← (values_of_isWhole h hwhole).1] at hshort
    exact ⟨hwhole, hshort⟩
  · rintro ⟨hwhole, hshort⟩
    rw [(values_of_isWhole h hwhole).1] at hshort
    exact ⟨hwhole, hshort⟩

/-! ## Rounding -/

theorem positional_append (ds es : List Nat) :
    positional (ds ++ es) = positional ds * 10 ^ es.length + positional es := by
  rw [positional, List.reverse_append, Nat.ofDigits_append, List.length_reverse, positional,
    positional, Nat.mul_comm, Nat.add_comm]

/-- The digits before and behind the point, read as one number, are the magnitude but for a power of
ten. -/
theorem magnitude_eq (n : Numeral) : n.magnitude = n.coefficient * 10 ^ n.scale := by
  have hten : (10 : ℚ) ≠ 0 := by norm_num
  have hscale : n.scale = n.power - (n.fraction.getD []).length := by
    unfold scale power positional
    cases n.exponent <;> simp only [ofDigits_eq]
  have hcoefficient : (n.coefficient : ℚ) =
      positional n.whole * 10 ^ (n.fraction.getD []).length + positional (n.fraction.getD []) := by
    rw [coefficient, ofDigits_eq, ← positional, positional_append]
    push_cast
    rfl
  rw [magnitude, hscale, hcoefficient, zpow_sub₀ hten, zpow_natCast]
  field_simp

/-- A numeral is rounded once, from its exact value. -/
theorem toBinary64_roundsTo (n : Numeral) :
    Binary64.RoundsTo n.negative n.magnitude n.toBinary64 := by
  rw [magnitude_eq]
  exact Binary64.ofDecimal_roundsTo n.negative n.coefficient n.scale

end Numeral

/-! ## The readers of integers and of floating-point numbers -/

namespace Literal

/-- The blanks that these readers drop are blanks, so they find none at the ends of a trimmed text.
-/
theorem core_trim (s : String) : core (trim s) = trimChars s.toList := by
  rw [core, toList_trim]
  exact trimWhere_trimWhere (fun c hc => (Bool.and_eq_true_iff.1 hc).1) _

theorem afterMark_ten (cs : List Char) : afterMark 10 cs = cs := by
  unfold afterMark
  split
  · exact if_neg nofun
  · rfl

/-- In base ten the digits in front are those of a numeral. -/
theorem digitsIn_ten (cs : List Char) : digitsIn 10 cs = (Numeral.digits cs).1 := by
  induction cs with
  | nil => rfl
  | cons c cs ih =>
    rw [digitsIn, Numeral.digits]
    cases hc : digitValue? c with
    | some d =>
      rw [baseDigit?_of_digit hc]
      dsimp only
      rw [if_pos (digitValue?_lt_ten hc), ih]
    | none =>
      -- a letter is a digit of a larger base only
      dsimp only
      split
      · next d hd =>
        have hlarge : ¬ d < 10 := by
          unfold baseDigit? at hd
          split at hd
          · cases hd
            omega
          · split at hd
            · cases hd
              omega
            · rw [hc] at hd
              cases hd
        exact if_neg hlarge
      · rfl

variable {text : String} {n : Numeral}

/-- Digits are refused that are none, or that do not take up the text. -/
theorem refused_iff (h : Numeral.ofChars? (core text) = some n) :
    (n.whole.isEmpty = true ∨ n.whole.length ≠ (Numeral.sign (core text)).2.length) ↔
      ¬ n.isWhole = true := by
  obtain ⟨-, hdigits, hrest⟩ := Numeral.front_of_ofChars? h
  obtain ⟨whole, hcs, digits⟩ := Numeral.exists_of_digits (Numeral.sign (core text)).2
  rw [← hdigits] at digits
  have hlength : (Numeral.sign (core text)).2.length =
      n.whole.length + (Numeral.digits (Numeral.sign (core text)).2).2.length := by
    rw [digits.length_eq, ← List.length_append, ← hcs]
  rw [hrest, ← List.length_eq_zero_iff, List.isEmpty_iff]
  constructor
  · rintro (hnil | hne) hzero
    · exact Numeral.whole_ne_nil h (hrest.2 (List.length_eq_zero_iff.1 hzero)) hnil
    · omega
  · intro hne
    right
    omega

/-- What the reader of integers makes of a numeral. -/
theorem integer_of_ofChars? (h : Numeral.ofChars? (core text) = some n) :
    integer 10 text =
      if digitLimit < n.whole.length then .error (.longNumeral n.whole.length)
      else if n.isWhole then .ok n.toInt else .error (.notNumeral 10 text) := by
  obtain ⟨hnegative, hdigits, -⟩ := Numeral.front_of_ofChars? h
  unfold integer
  simp only [afterMark_ten, digitsIn_ten, ← hdigits, ← hnegative, true_and, refused_iff h, ite_not]
  rfl

/-- The reader of floating-point numbers takes every numeral. -/
theorem decimal_of_ofChars? (h : Numeral.ofChars? (core text) = some n) :
    decimal text = .ok n.toBinary64 := by
  unfold decimal
  simp only [h]

end Literal

/-! ## All three together -/

namespace Number

open Numeral

variable {s : String} {n : Numeral}

theorem ofText?_of_numeral (h : ofChars? (trimChars s.toList) = some n) :
    ofText? s = some (ofNumeral n) := by
  rw [ofText?, h, Option.map_some]

theorem ofNumeral_of_short (hwhole : n.isWhole = true) (hshort : n.whole.length ≤ digitLimit) :
    ofNumeral n = .int n.toInt :=
  if_pos ⟨hwhole, hshort⟩

theorem ofNumeral_of_not_short (h : ¬ (n.isWhole = true ∧ n.whole.length ≤ digitLimit)) :
    ofNumeral n = .float n.toBinary64 :=
  if_neg h

theorem ofText?_eq_none_iff : ofText? s = none ↔ trimChars s.toList ∉ numerals := by
  rw [ofText?, Option.map_eq_none_iff, ← isSome_ofChars?_iff, Option.isSome_iff_ne_none,
    not_ne_iff]

/-- The integers are read from the short whole numerals. -/
theorem ofText?_eq_int_iff {i : Int} :
    ofText? s = some (.int i) ↔ IsShortWhole (trimChars s.toList) ∧
      i = signFactor (trimChars s.toList) * positional (digitValues (trimChars s.toList)) := by
  constructor
  · intro h
    obtain ⟨n, hn, hi⟩ := Option.map_eq_some_iff.1 h
    by_cases hshort : n.isWhole = true ∧ n.whole.length ≤ digitLimit
    · rw [ofNumeral_of_short hshort.1 hshort.2] at hi
      cases hi
      exact ⟨(isShortWhole_iff hn).2 hshort, (values_of_isWhole hn hshort.1).2⟩
    · rw [ofNumeral_of_not_short hshort] at hi
      cases hi
  · rintro ⟨hshort, rfl⟩
    obtain ⟨n, hn, -⟩ := exists_of_wholeNumerals hshort.1
    obtain ⟨hwhole, hlength⟩ := (isShortWhole_iff hn).1 hshort
    rw [ofText?_of_numeral hn, ofNumeral_of_short hwhole hlength, (values_of_isWhole hn hwhole).2]

/-- Every other numeral is read as the floating-point number that it is rounded to. -/
theorem ofText?_eq_float_iff {x : Binary64} :
    ofText? s = some (.float x) ↔ ¬ IsShortWhole (trimChars s.toList) ∧
      ∃ n : Numeral, n.Writes (trimChars s.toList) ∧
        Binary64.RoundsTo n.negative n.magnitude x := by
  constructor
  · intro h
    obtain ⟨n, hn, hx⟩ := Option.map_eq_some_iff.1 h
    by_cases hshort : n.isWhole = true ∧ n.whole.length ≤ digitLimit
    · rw [ofNumeral_of_short hshort.1 hshort.2] at hx
      cases hx
    · rw [ofNumeral_of_not_short hshort] at hx
      cases hx
      exact ⟨fun hs => hshort ((isShortWhole_iff hn).1 hs), n, ofChars?_eq_some_iff.1 hn,
        toBinary64_roundsTo n⟩
  · rintro ⟨hshort, n, hwrites, hx⟩
    have hn := ofChars?_eq_some_iff.2 hwrites
    rw [ofText?_of_numeral hn, ofNumeral_of_not_short fun h => hshort ((isShortWhole_iff hn).2 h),
      (toBinary64_roundsTo n).unique hx]

/-- The reader of integers is tried, and where it fails, the reader of floating-point numbers. It
fails on a numeral that has a point, an exponent or too many digits, and the other one never does.
-/
theorem ofText?_of_attempts (h : trimChars s.toList ∈ numerals) :
    (∃ i, Literal.integer 10 (trim s) = .ok i ∧ ofText? s = some (.int i)) ∨
    (∃ fault x, Literal.integer 10 (trim s) = .error fault ∧ Literal.decimal (trim s) = .ok x ∧
      ofText? s = some (.float x)) := by
  obtain ⟨n, hn⟩ := Option.isSome_iff_exists.1 (isSome_ofChars?_iff.2 h)
  have hcore : ofChars? (Literal.core (trim s)) = some n := by rw [Literal.core_trim, hn]
  rw [Literal.integer_of_ofChars? hcore, Literal.decimal_of_ofChars? hcore, ofText?_of_numeral hn]
  by_cases hlong : digitLimit < n.whole.length
  · rw [if_pos hlong, ofNumeral_of_not_short fun hshort => hlong.not_ge hshort.2]
    exact .inr ⟨_, _, rfl, rfl, rfl⟩
  · rw [if_neg hlong]
    by_cases hwhole : n.isWhole = true
    · rw [if_pos hwhole, ofNumeral_of_short hwhole (not_lt.1 hlong)]
      exact .inl ⟨_, rfl, rfl⟩
    · rw [if_neg hwhole, ofNumeral_of_not_short fun hshort => hwhole hshort.1]
      exact .inr ⟨_, _, rfl, rfl, rfl⟩

/-- Blanks around a text make no difference. -/
theorem ofText?_blanks {before after : String} (hbefore : isBlankText before = true)
    (hafter : isBlankText after = true) : ofText? (before ++ s ++ after) = ofText? s := by
  have htrim : trimChars (before ++ s ++ after).toList = trimChars s.toList := by
    rw [String.toList_append, String.toList_append, List.append_assoc]
    exact trimWhere_append (List.all_eq_true.1 hbefore) (List.all_eq_true.1 hafter) _
  rw [ofText?, htrim, ofText?]

end Number

namespace Value

open Numeral

/-- **How texts are read as numbers.** What counts is the text without the blanks at its ends. It is
no number when it is no numeral. It is an integer when it is a short whole numeral, the one with its
sign and its digits. Every other numeral is the floating-point number that the exact value of the
numeral is rounded to. The readers of integers and of floating-point numbers, tried in this order,
never both refuse a numeral, and blanks around a text change nothing. -/
theorem toNumber?_of_text (s : String) :
    ((text s).toNumber? = none ↔ trimChars s.toList ∉ numerals) ∧
    (∀ i, (text s).toNumber? = some (.int i) ↔ IsShortWhole (trimChars s.toList) ∧
      i = signFactor (trimChars s.toList) * positional (digitValues (trimChars s.toList))) ∧
    (∀ x, (text s).toNumber? = some (.float x) ↔ ¬ IsShortWhole (trimChars s.toList) ∧
      ∃ n : Numeral, n.Writes (trimChars s.toList) ∧
        Binary64.RoundsTo n.negative n.magnitude x) ∧
    (trimChars s.toList ∈ numerals →
      (∃ i, Literal.integer 10 (trim s) = .ok i ∧ (text s).toNumber? = some (.int i)) ∨
      (∃ fault x, Literal.integer 10 (trim s) = .error fault ∧
        Literal.decimal (trim s) = .ok x ∧ (text s).toNumber? = some (.float x))) ∧
    (∀ before after : String, isBlankText before = true → isBlankText after = true →
      (text (before ++ s ++ after)).toNumber? = (text s).toNumber?) :=
  ⟨Number.ofText?_eq_none_iff, fun _ => Number.ofText?_eq_int_iff,
    fun _ => Number.ofText?_eq_float_iff, Number.ofText?_of_attempts,
    fun _ _ hbefore hafter => Number.ofText?_blanks hbefore hafter⟩

/-- Digits of two scripts, between blanks. -/
example : (text " +٤2\n").toNumber? = some (.int 42) := by decide

end Value

end Verdict
