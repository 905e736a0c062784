import Mathlib.Computability.Language
import Verdict.Numeric.Numeral
/-!
# The grammar of numerals

Numerals are a regular language: an optional sign, then digits with an optional point behind or
among them or a point with digits behind it, then an optional exponent. `numerals` is that language,
written down as it is read aloud.

The reader of numerals goes through a text once, each part taking the longest row of characters that
fits. `Writes` says part by part which text a numeral stands for. What the reader finds is what the
text writes, and it finds every numeral that a text writes (`ofChars?_eq_some_iff`): a part never
takes a character that a later part would have needed, since each part begins with a character that
the part before it cannot hold. So the texts that are read are those of the language
(`isSome_ofChars?_iff`).
-/

namespace Verdict.Numeral

open Text
open scoped Computability

/-! ## The language -/

/-- The texts of one character of a class. -/
def oneOf (p : Char → Bool) : Language Char := {cs | ∃ c, p c = true ∧ cs = [c]}

/-- The empty text and the texts of a language. -/
def atMostOne (L : Language Char) : Language Char := 1 + L

/-- The two signs. -/
def signs : Language Char := oneOf fun c => c = '+' || c = '-'

/-- The decimal point. -/
def points : Language Char := oneOf fun c => c = '.'

/-- The letters that begin an exponent. -/
def exponentMarks : Language Char := oneOf fun c => c = 'e' || c = 'E'

/-- Any number of decimal digits. -/
def anyDigits : Language Char := (oneOf isDecimalDigit)∗

/-- One decimal digit or more. -/
def someDigits : Language Char := oneOf isDecimalDigit * anyDigits

/-- The numerals without point and exponent. -/
def wholeNumerals : Language Char := atMostOne signs * someDigits

/-- The numerals. -/
def numerals : Language Char :=
  atMostOne signs * (someDigits * atMostOne (points * anyDigits) + points * someDigits) *
    atMostOne (exponentMarks * wholeNumerals)

theorem mem_atMostOne {L : Language Char} {cs : List Char} :
    cs ∈ atMostOne L ↔ cs = [] ∨ cs ∈ L := by
  rw [atMostOne, Language.mem_add, Language.mem_one]

theorem mem_oneOf_mul {p : Char → Bool} {L : Language Char} {cs : List Char} :
    cs ∈ oneOf p * L ↔ ∃ c ds, cs = c :: ds ∧ p c = true ∧ ds ∈ L := by
  rw [Language.mem_mul]
  constructor
  · rintro ⟨_, ⟨c, hc, rfl⟩, ds, hds, rfl⟩
    exact ⟨c, ds, rfl, hc, hds⟩
  · rintro ⟨c, ds, rfl, hc, hds⟩
    exact ⟨[c], ⟨c, hc, rfl⟩, ds, hds, rfl⟩

/-- The first language is that of decimal digits in any number. -/
theorem mem_anyDigits {cs : List Char} :
    cs ∈ anyDigits ↔ ∀ c ∈ cs, isDecimalDigit c = true := by
  rw [anyDigits, Language.mem_kstar]
  constructor
  · rintro ⟨rows, rfl, hrows⟩ c hc
    obtain ⟨row, hrow, hc⟩ := List.mem_flatten.1 hc
    obtain ⟨d, hd, rfl⟩ := hrows row hrow
    rwa [List.mem_singleton.1 hc]
  · intro h
    refine ⟨cs.map fun c => [c], ?_, ?_⟩
    · induction cs with
      | nil => rfl
      | cons c cs ih =>
        rw [List.map_cons, List.flatten_cons, ← ih fun d hd => h d (List.mem_cons_of_mem c hd)]
        rfl
    · intro row hrow
      obtain ⟨c, hc, rfl⟩ := List.mem_map.1 hrow
      exact ⟨c, h c hc, rfl⟩

/-- The second is that of one decimal digit or more. -/
theorem mem_someDigits {cs : List Char} :
    cs ∈ someDigits ↔ cs ≠ [] ∧ ∀ c ∈ cs, isDecimalDigit c = true := by
  rw [someDigits, mem_oneOf_mul]
  simp only [mem_anyDigits]
  constructor
  · rintro ⟨c, ds, rfl, hc, hds⟩
    exact ⟨List.cons_ne_nil c ds, List.forall_mem_cons.2 ⟨hc, hds⟩⟩
  · rintro ⟨hne, h⟩
    cases cs with
    | nil => exact absurd rfl hne
    | cons c ds => exact ⟨c, ds, rfl, List.forall_mem_cons.1 h⟩

/-! ## Which text a numeral stands for -/

/-- The texts of a sign, which is a minus or not. -/
inductive SignOf : Bool → List Char → Prop
  /-- No sign is a plus. -/
  | absent : SignOf false []
  | plus : SignOf false ['+']
  | minus : SignOf true ['-']

/-- Whether characters are the digits with the given values. -/
def DigitsOf (ds : List Nat) (cs : List Char) : Prop := cs.map digitValue? = ds.map some

/-- The texts of a point and the digits behind it. -/
inductive FractionOf : Option (List Nat) → List Char → Prop
  | absent : FractionOf none []
  | given {ds : List Nat} {cs : List Char} (digits : DigitsOf ds cs) :
    FractionOf (some ds) ('.' :: cs)

/-- The texts of an exponent. -/
inductive ExponentOf : Option (Bool × List Nat) → List Char → Prop
  | absent : ExponentOf none []
  | given {c : Char} {negative : Bool} {ds : List Nat} {sign cs : List Char}
    (mark : c = 'e' ∨ c = 'E') (signed : SignOf negative sign) (digits : DigitsOf ds cs)
    (some_digit : ds ≠ []) : ExponentOf (some (negative, ds)) (c :: (sign ++ cs))

/-- Whether a numeral has a digit before or behind its point. -/
def HasDigit (n : Numeral) : Prop := ¬ (n.whole = [] ∧ (n.fraction = none ∨ n.fraction = some []))

/-- Whether a numeral stands for a text. -/
def Writes (n : Numeral) (cs : List Char) : Prop :=
  ∃ sign whole fraction exponent, cs = sign ++ (whole ++ (fraction ++ exponent)) ∧
    SignOf n.negative sign ∧ DigitsOf n.whole whole ∧ FractionOf n.fraction fraction ∧
    ExponentOf n.exponent exponent ∧ n.HasDigit

theorem digitsOf_nil : DigitsOf [] [] := rfl

theorem digitsOf_cons {d : Nat} {ds : List Nat} {c : Char} {cs : List Char} :
    DigitsOf (d :: ds) (c :: cs) ↔ digitValue? c = some d ∧ DigitsOf ds cs := by
  rw [DigitsOf, List.map_cons, List.map_cons, List.cons.injEq, DigitsOf]

theorem DigitsOf.length_eq {ds : List Nat} {cs : List Char} (h : DigitsOf ds cs) :
    ds.length = cs.length := by
  have hlength := congrArg List.length h
  rw [List.length_map, List.length_map] at hlength
  exact hlength.symm

theorem DigitsOf.nil_iff {ds : List Nat} {cs : List Char} (h : DigitsOf ds cs) :
    ds = [] ↔ cs = [] := by
  rw [← List.length_eq_zero_iff, ← List.length_eq_zero_iff, h.length_eq]

/-- Digits are read from the characters alone. -/
theorem DigitsOf.filterMap_eq {ds : List Nat} {cs : List Char} (h : DigitsOf ds cs) :
    cs.filterMap digitValue? = ds := by
  have hmap : (cs.map digitValue?).filterMap id = (ds.map some).filterMap id := congrArg _ h
  simpa [List.filterMap_map] using hmap

/-- Characters that are all digits have values. -/
theorem exists_digitsOf_iff {cs : List Char} :
    (∃ ds, DigitsOf ds cs) ↔ ∀ c ∈ cs, isDecimalDigit c = true := by
  induction cs with
  | nil => exact ⟨fun _ => List.forall_mem_nil _, fun _ => ⟨[], rfl⟩⟩
  | cons c cs ih =>
    rw [List.forall_mem_cons, ← ih, isDecimalDigit, Option.isSome_iff_exists]
    constructor
    · rintro ⟨ds, h⟩
      cases ds with
      | nil => cases h
      | cons d ds =>
        obtain ⟨hd, hds⟩ := digitsOf_cons.1 h
        exact ⟨⟨d, hd⟩, ds, hds⟩
    · rintro ⟨⟨d, hd⟩, ds, hds⟩
      exact ⟨d :: ds, digitsOf_cons.2 ⟨hd, hds⟩⟩

/-- What a sign may be is one of the signs, or nothing. -/
theorem exists_signOf_iff {cs : List Char} : (∃ b, SignOf b cs) ↔ cs ∈ atMostOne signs := by
  rw [mem_atMostOne]
  constructor
  · rintro ⟨b, h⟩
    cases h with
    | absent => exact .inl rfl
    | plus => exact .inr ⟨'+', rfl, rfl⟩
    | minus => exact .inr ⟨'-', rfl, rfl⟩
  · rintro (rfl | ⟨c, hc, rfl⟩)
    · exact ⟨false, .absent⟩
    · rw [Bool.or_eq_true, decide_eq_true_eq, decide_eq_true_eq] at hc
      rcases hc with rfl | rfl
      · exact ⟨false, .plus⟩
      · exact ⟨true, .minus⟩

/-- What a fraction may be is a point and digits, or nothing. -/
theorem exists_fractionOf_iff {cs : List Char} :
    (∃ o, FractionOf o cs) ↔ cs ∈ atMostOne (points * anyDigits) := by
  rw [mem_atMostOne, points, mem_oneOf_mul]
  simp only [mem_anyDigits, ← exists_digitsOf_iff, decide_eq_true_eq]
  constructor
  · rintro ⟨o, h⟩
    cases h with
    | absent => exact .inl rfl
    | given digits => exact .inr ⟨'.', _, rfl, rfl, _, digits⟩
  · rintro (rfl | ⟨c, cs, rfl, rfl, ds, digits⟩)
    · exact ⟨none, .absent⟩
    · exact ⟨some ds, .given digits⟩

/-- What an exponent may be is a mark and a whole numeral, or nothing. -/
theorem exists_exponentOf_iff {cs : List Char} :
    (∃ e, ExponentOf e cs) ↔ cs ∈ atMostOne (exponentMarks * wholeNumerals) := by
  rw [mem_atMostOne, exponentMarks, mem_oneOf_mul, wholeNumerals]
  simp only [Language.mem_mul, mem_someDigits, ← exists_digitsOf_iff, ← exists_signOf_iff,
    Bool.or_eq_true, decide_eq_true_eq]
  constructor
  · rintro ⟨e, h⟩
    cases h with
    | absent => exact .inl rfl
    | given mark signed digits some_digit =>
      exact .inr ⟨_, _, rfl, mark, _, ⟨_, signed⟩, _,
        ⟨fun h => some_digit (digits.nil_iff.2 h), _, digits⟩, rfl⟩
  · rintro (rfl | ⟨c, _, rfl, mark, sign, ⟨b, signed⟩, cs, ⟨hne, ds, digits⟩, rfl⟩)
    · exact ⟨none, .absent⟩
    · exact ⟨some (b, ds), .given mark signed digits fun h => hne (digits.nil_iff.1 h)⟩

/-- Digits with a point somewhere among them, by the alternatives of the language. -/
theorem exists_mantissa_iff {cs : List Char} :
    (∃ ds o whole fraction, cs = whole ++ fraction ∧ DigitsOf ds whole ∧ FractionOf o fraction ∧
      ¬ (ds = [] ∧ (o = none ∨ o = some []))) ↔
      cs ∈ someDigits * atMostOne (points * anyDigits) + points * someDigits := by
  rw [Language.mem_add, Language.mem_mul, points, mem_oneOf_mul, ← points]
  simp only [mem_someDigits, ← exists_digitsOf_iff, ← exists_fractionOf_iff, decide_eq_true_eq]
  constructor
  · rintro ⟨ds, o, whole, fraction, rfl, hwhole, hfraction, hdigit⟩
    by_cases hds : ds = []
    · -- without a digit in front there is a point, and a digit behind it
      have hnil : whole = [] := hwhole.nil_iff.1 hds
      cases hfraction with
      | absent => exact absurd ⟨hds, .inl rfl⟩ hdigit
      | @given fs cs digits =>
        have hfs : fs ≠ [] := fun h => hdigit ⟨hds, .inr (congrArg some h)⟩
        exact .inr ⟨'.', cs, by rw [hnil, List.nil_append], rfl, fun h => hfs (digits.nil_iff.2 h),
          fs, digits⟩
    · exact .inl ⟨whole, ⟨fun h => hds (hwhole.nil_iff.2 h), ds, hwhole⟩, fraction,
        ⟨o, hfraction⟩, rfl⟩
  · rintro (⟨whole, ⟨hne, ds, hwhole⟩, fraction, ⟨o, hfraction⟩, rfl⟩ |
      ⟨c, cs, rfl, rfl, hne, ds, digits⟩)
    · exact ⟨ds, o, whole, fraction, rfl, hwhole, hfraction, fun h => hne (hwhole.nil_iff.1 h.1)⟩
    · refine ⟨[], some ds, [], '.' :: cs, rfl, digitsOf_nil, .given digits, ?_⟩
      rintro ⟨-, h | h⟩
      · cases h
      · exact hne (digits.nil_iff.1 (Option.some.inj h))

/-- The texts that numerals stand for are those of the language. -/
theorem exists_writes_iff {cs : List Char} : (∃ n : Numeral, n.Writes cs) ↔ cs ∈ numerals := by
  rw [numerals, Language.mem_mul]
  simp only [Language.mem_mul, ← exists_signOf_iff, ← exists_mantissa_iff, ← exists_exponentOf_iff]
  constructor
  · rintro ⟨⟨b, ds, o, e⟩, sign, whole, fraction, exponent, rfl, hs, hw, hf, he, hdigit⟩
    exact ⟨sign ++ (whole ++ fraction),
      ⟨sign, ⟨b, hs⟩, whole ++ fraction, ⟨ds, o, whole, fraction, rfl, hw, hf, hdigit⟩, rfl⟩,
      exponent, ⟨e, he⟩, by simp only [List.append_assoc]⟩
  · rintro ⟨_, ⟨sign, ⟨b, hs⟩, _, ⟨ds, o, whole, fraction, rfl, hw, hf, hdigit⟩, rfl⟩,
      exponent, ⟨e, he⟩, rfl⟩
    exact ⟨⟨b, ds, o, e⟩, sign, whole, fraction, exponent, by simp only [List.append_assoc], hs, hw,
      hf, he, hdigit⟩

/-! ## What the reader takes -/

/-- Whether a row of characters is empty or begins with a character of a class. -/
def Begins (p : Char → Prop) (cs : List Char) : Prop := ∀ c ∈ cs.head?, p c

theorem Begins.mono {p q : Char → Prop} {cs : List Char} (h : Begins p cs)
    (hpq : ∀ c, p c → q c) : Begins q cs :=
  fun c hc => hpq c (h c hc)

/-- The digits that are read are what stands in front of the rest. -/
theorem exists_of_digits (cs : List Char) :
    ∃ whole, cs = whole ++ (digits cs).2 ∧ DigitsOf (digits cs).1 whole := by
  induction cs with
  | nil => exact ⟨[], rfl, rfl⟩
  | cons c cs ih =>
    rw [digits]
    cases hc : digitValue? c with
    | none => exact ⟨[], rfl, rfl⟩
    | some d =>
      obtain ⟨whole, hcs, hwhole⟩ := ih
      exact ⟨c :: whole, congrArg (c :: ·) hcs, digitsOf_cons.2 ⟨hc, hwhole⟩⟩

/-- Digits are read up to what is none. -/
theorem digits_append {ds : List Nat} {whole rest : List Char} (h : DigitsOf ds whole)
    (hrest : Begins (fun c => digitValue? c = none) rest) :
    digits (whole ++ rest) = (ds, rest) := by
  induction whole generalizing ds with
  | nil =>
    rw [(h.nil_iff).2 rfl, List.nil_append]
    cases rest with
    | nil => rfl
    | cons c rest => rw [digits, hrest c rfl]
  | cons c whole ih =>
    cases ds with
    | nil => cases h
    | cons d ds =>
      obtain ⟨hc, hds⟩ := digitsOf_cons.1 h
      rw [List.cons_append, digits, hc]
      dsimp only
      rw [ih hds]

theorem exists_of_sign (cs : List Char) :
    ∃ s, cs = s ++ (sign cs).2 ∧ SignOf (sign cs).1 s := by
  unfold sign
  split
  · exact ⟨['+'], rfl, .plus⟩
  · exact ⟨['-'], rfl, .minus⟩
  · exact ⟨[], rfl, .absent⟩

/-- A sign is read in front of what is none. -/
theorem sign_append {b : Bool} {s rest : List Char} (h : SignOf b s)
    (hrest : Begins (fun c => c ≠ '+' ∧ c ≠ '-') rest) : sign (s ++ rest) = (b, rest) := by
  cases h with
  | absent =>
    rw [List.nil_append]
    unfold sign
    split
    · exact absurd rfl (hrest _ rfl).1
    · exact absurd rfl (hrest _ rfl).2
    · rfl
  | plus => rfl
  | minus => rfl

theorem exists_of_point (cs : List Char) :
    ∃ fraction, cs = fraction ++ (point cs).2 ∧ FractionOf (point cs).1 fraction := by
  unfold point
  split
  · next cs =>
    obtain ⟨ds, hcs, hds⟩ := exists_of_digits cs
    exact ⟨'.' :: ds, congrArg ('.' :: ·) hcs, .given hds⟩
  · exact ⟨[], rfl, .absent⟩

/-- A fraction is read up to what is no part of it. -/
theorem point_append {o : Option (List Nat)} {fraction rest : List Char}
    (h : FractionOf o fraction) (hrest : Begins (fun c => c ≠ '.' ∧ digitValue? c = none) rest) :
    point (fraction ++ rest) = (o, rest) := by
  cases h with
  | absent =>
    rw [List.nil_append]
    unfold point
    split
    · exact absurd rfl (hrest _ rfl).1
    · rfl
  | given hds =>
    rw [List.cons_append, point, digits_append hds (hrest.mono fun _ hc => hc.2)]

/-! Each part begins with a character that the part before it cannot hold. -/

theorem begins_exponent {e : Option (Bool × List Nat)} {cs : List Char} (h : ExponentOf e cs) :
    Begins (fun c => c = 'e' ∨ c = 'E') cs := by
  cases h with
  | absent => exact nofun
  | given mark =>
    intro c hc
    cases hc
    exact mark

theorem begins_fraction {p : Char → Prop} {o : Option (List Nat)} {fraction rest : List Char}
    (h : FractionOf o fraction) (hpoint : p '.') (hrest : Begins p rest) :
    Begins p (fraction ++ rest) := by
  cases h with
  | absent => exact hrest
  | given _ =>
    intro c hc
    cases hc
    exact hpoint

theorem begins_digits {p : Char → Prop} {ds : List Nat} {whole rest : List Char}
    (h : DigitsOf ds whole) (hdigit : ∀ c, (digitValue? c).isSome → p c) (hrest : Begins p rest) :
    Begins p (whole ++ rest) := by
  cases whole with
  | nil => exact hrest
  | cons d whole =>
    intro c hc
    cases hc
    exact hdigit d (exists_digitsOf_iff.1 ⟨ds, h⟩ d List.mem_cons_self)

theorem not_sign_of_digit (c : Char) (h : (digitValue? c).isSome) : c ≠ '+' ∧ c ≠ '-' := by
  have hplus : (digitValue? '+').isSome = false := by decide
  have hminus : (digitValue? '-').isSome = false := by decide
  constructor <;> rintro rfl
  · exact absurd h (by rw [hplus]; exact Bool.false_ne_true)
  · exact absurd h (by rw [hminus]; exact Bool.false_ne_true)

theorem begins_no_sign {ds : List Nat} {cs : List Char} (h : DigitsOf ds cs) :
    Begins (fun c => c ≠ '+' ∧ c ≠ '-') cs := by
  have hbegins : Begins (fun c => c ≠ '+' ∧ c ≠ '-') (cs ++ []) :=
    begins_digits h not_sign_of_digit nofun
  rwa [List.append_nil] at hbegins

/-- What is left for an exponent is read exactly if it is one. -/
theorem exponent?_eq_some_iff {cs : List Char} {e : Option (Bool × List Nat)} :
    exponent? cs = some e ↔ ExponentOf e cs := by
  constructor
  · intro h
    cases cs with
    | nil =>
      cases h
      exact .absent
    | cons c cs =>
      rw [exponent?] at h
      split at h
      · next mark =>
        obtain ⟨s, hs, signed⟩ := exists_of_sign cs
        obtain ⟨whole, hwhole, hds⟩ := exists_of_digits (sign cs).2
        dsimp only at h
        split at h
        · next d ds hdigits =>
          cases h
          rw [hdigits] at hwhole hds
          have hcs : cs = s ++ whole := hs.trans (by rw [hwhole, List.append_nil])
          have hgiven := ExponentOf.given mark signed hds (List.cons_ne_nil d ds)
          rwa [← hcs] at hgiven
        · cases h
      · cases h
  · intro h
    cases h with
    | absent => rfl
    | @given c negative ds s cs mark signed hds hne =>
      have hsign : sign (s ++ cs) = (negative, cs) := sign_append signed (begins_no_sign hds)
      -- the digits end where the text does
      have hdigits : digits cs = (ds, []) := by
        have hend : Begins (fun c => digitValue? c = none) [] := nofun
        have happend := digits_append hds hend
        rwa [List.append_nil] at happend
      obtain ⟨d, ds, rfl⟩ := List.exists_cons_of_ne_nil hne
      rw [exponent?, if_pos mark]
      dsimp only
      rw [hsign]
      dsimp only
      rw [hdigits]

/-- **The reader is exact.** What is read from a text is what the text writes. -/
theorem ofChars?_eq_some_iff {cs : List Char} {n : Numeral} :
    ofChars? cs = some n ↔ n.Writes cs := by
  constructor
  · -- read from the left, each part leaves what the next one begins with
    intro h
    obtain ⟨s, hs, signed⟩ := exists_of_sign cs
    obtain ⟨whole, hwhole, digits⟩ := exists_of_digits (sign cs).2
    obtain ⟨fraction, hfraction, pointed⟩ := exists_of_point (Numeral.digits (sign cs).2).2
    unfold ofChars? at h
    dsimp only at h
    split at h
    · cases h
    · next hdigit =>
      obtain ⟨e, he, rfl⟩ := Option.map_eq_some_iff.1 h
      have hcs : cs = s ++ (whole ++ (fraction ++ (point (Numeral.digits (sign cs).2).2).2)) := by
        rw [← hfraction, ← hwhole, ← hs]
      exact ⟨s, whole, fraction, _, hcs, signed, digits, pointed, exponent?_eq_some_iff.1 he,
        hdigit⟩
  · -- for each part, what follows cannot be taken for more of it
    rintro ⟨s, whole, fraction, exponent, rfl, signed, digits, pointed, hexponent, hdigit⟩
    have hmark := begins_exponent hexponent
    have hpoint : point (fraction ++ exponent) = (n.fraction, exponent) := by
      refine point_append pointed (hmark.mono ?_)
      rintro c (rfl | rfl) <;> decide
    have hdigits : Numeral.digits (whole ++ (fraction ++ exponent)) =
        (n.whole, fraction ++ exponent) := by
      refine digits_append digits (begins_fraction pointed (by decide) (hmark.mono ?_))
      rintro c (rfl | rfl) <;> decide
    have hsign : sign (s ++ (whole ++ (fraction ++ exponent))) =
        (n.negative, whole ++ (fraction ++ exponent)) := by
      refine sign_append signed (begins_digits digits not_sign_of_digit
        (begins_fraction pointed (by decide) (hmark.mono ?_)))
      rintro c (rfl | rfl) <;> decide
    unfold ofChars?
    dsimp only
    rw [hsign]
    dsimp only
    rw [hdigits]
    dsimp only
    rw [hpoint]
    dsimp only
    rw [if_neg hdigit, exponent?_eq_some_iff.2 hexponent]
    rfl

/-- **The texts that are read are those of the language.** -/
theorem isSome_ofChars?_iff {cs : List Char} : (ofChars? cs).isSome ↔ cs ∈ numerals := by
  rw [← exists_writes_iff, Option.isSome_iff_exists]
  simp only [ofChars?_eq_some_iff]

end Verdict.Numeral
