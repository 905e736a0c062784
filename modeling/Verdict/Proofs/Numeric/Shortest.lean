import Verdict.Numeric.Shortest
import Verdict.Proofs.Numeric.Digits
/-!
# Shortest decimals read back

The shortest decimal of a magnitude is found on the first grid, from coarse to fine, that has a
point in the interval of the reals that round to the magnitude. Whatever grid that is, its point is
rounded to the magnitude (`isNearest_of_gridPoint?`). The last grid that is tried is finer than the
narrowest interval, so that a point is always found (`shortest_isNearest`).

The decimal is then laid out as a numeral that is never whole, in one of four ways, each of them
exact (`exists_writes_decimalText`). So the text of a finite number is read as the same number
(`ofText?_text`).
-/

namespace Verdict

open Text

namespace Binary64

/-! ## The interval of a magnitude -/

/-- Between two neighbours, counted in units, the nearer one is nearest of all. -/
theorem isNearest_of_units {x : ℚ} {low rank : Nat} (hlow : (unitsOf low : ℚ) ≤ x)
    (hhigh : x < unitsOf (low + 1))
    (hrank : (rank = low ∧ x - unitsOf low ≤ unitsOf (low + 1) - x ∧
        (x - unitsOf low = unitsOf (low + 1) - x → Even low)) ∨
      (rank = low + 1 ∧ unitsOf (low + 1) - x ≤ x - unitsOf low ∧
        (unitsOf (low + 1) - x = x - unitsOf low → Even (low + 1)))) :
    IsNearest (x / unitsInOne) rank := by
  have hone := cast_unitsInOne_pos
  have hbetween := @isNearest_of_between (x / unitsInOne) low rank
  simp only [magnitude_eq_unitsOf, ← sub_div, div_le_div_iff_of_pos_right hone,
    div_lt_div_iff_of_pos_right hone, div_left_inj' hone.ne'] at hbetween
  exact hbetween hlow hhigh hrank

/-- What lies in the interval of a rank is not beyond its ends, and only an even rank takes the ends
themselves. -/
theorem ends_of_reads {rank num den : Nat} (hden : 0 < den) (h : reads rank num den = true) :
    (lowerEnd rank : ℚ) ≤ num / den ∧ (num : ℚ) / den ≤ upperEnd rank ∧
      ((lowerEnd rank : ℚ) = num / den ∨ (num : ℚ) / den = upperEnd rank → Even rank) := by
  have hden' : (0 : ℚ) < den := Nat.cast_pos.2 hden
  rw [le_div_iff₀ hden', div_le_iff₀ hden', eq_div_iff hden'.ne', div_eq_iff hden'.ne',
    Nat.even_iff]
  norm_cast
  unfold reads at h
  split at h
  · next heven =>
    rw [Bool.and_eq_true, decide_eq_true_eq, decide_eq_true_eq] at h
    exact ⟨h.1, h.2, fun _ => heven⟩
  · rw [Bool.and_eq_true, decide_eq_true_eq, decide_eq_true_eq] at h
    exact ⟨h.1.le, h.2.le, fun htie => by omega⟩

/-- **What lies in the interval of a positive magnitude is rounded to it.** -/
theorem isNearest_of_reads {rank num den : Nat} (hrank : 0 < rank) (hden : 0 < den)
    (h : reads rank num den = true) : IsNearest ((num : ℚ) / den / 2 / unitsInOne) rank := by
  obtain ⟨hlower, hupper, heven⟩ := ends_of_reads hden h
  obtain ⟨low, rfl⟩ := Nat.exists_eq_succ_of_ne_zero hrank.ne'
  generalize (num : ℚ) / den = v at hlower hupper heven ⊢
  rw [lowerEnd, Nat.succ_sub_one, Nat.cast_add] at hlower heven
  rw [upperEnd, Nat.cast_add] at hupper heven
  have hstep : (unitsOf low : ℚ) < unitsOf (low + 1) := Nat.cast_lt.2 (unitsOf_lt_succ low)
  have hnext : (unitsOf (low + 1) : ℚ) < unitsOf (low + 1 + 1) :=
    Nat.cast_lt.2 (unitsOf_lt_succ (low + 1))
  rw [Nat.succ_eq_add_one] at *
  by_cases hside : v / 2 < unitsOf (low + 1)
  · -- below the magnitude, the neighbour is the one before it
    refine isNearest_of_units (by linarith) hside (.inr ⟨rfl, by linarith, ?_⟩)
    exact fun htie => heven (.inl (by linarith))
  · -- from the magnitude on, the neighbour is the one behind it
    refine isNearest_of_units (not_lt.1 hside) (by linarith)
      (.inl ⟨rfl, by linarith, ?_⟩)
    exact fun htie => heven (.inr (by linarith))

/-! ## Decimal grids -/

theorem spacing_pos (p : Int) : 0 < (spacing p).1 ∧ 0 < (spacing p).2 := by
  have hone : 0 < unitsInOne := Nat.cast_pos.1 cast_unitsInOne_pos
  unfold spacing
  split
  · exact ⟨Nat.mul_pos (Nat.pow_pos (by decide)) (by omega), Nat.one_pos⟩
  · exact ⟨by omega, Nat.pow_pos (by decide)⟩

/-- The spacing of a grid is a power of ten. -/
theorem spacing_eq (p : Int) :
    ((spacing p).1 : ℚ) / (spacing p).2 / 2 / unitsInOne = 10 ^ p := by
  have hone := cast_unitsInOne_pos.ne'
  unfold spacing
  split
  · next hp =>
    have hpower := decimal_eq_of_nonneg 1 hp
    rw [Nat.cast_one, one_mul, Nat.one_mul] at hpower
    rw [hpower]
    push_cast
    field_simp
  · next hp =>
    have hpower := decimal_eq_of_neg 1 hp
    rw [Nat.cast_one, one_mul] at hpower
    rw [hpower]
    push_cast
    field_simp

/-- The point that a grid has for a rank is no zero, and it lies in the interval of the rank. -/
theorem reads_of_gridPoint? {rank c : Nat} {p : Int} (h : gridPoint? rank p = some c) :
    c ≠ 0 ∧ reads rank (c * (spacing p).1) (spacing p).2 = true := by
  unfold gridPoint? at h
  dsimp only at h
  generalize 2 * unitsOf rank * (spacing p).2 = value at h
  generalize value / (spacing p).1 = low at h
  split at h
  · next hboth =>
    rw [Bool.and_eq_true, Bool.and_eq_true, decide_eq_true_eq] at hboth
    obtain ⟨⟨hne, hlow⟩, hhigh⟩ := hboth
    -- of two points, one or the other
    have hcases : c = low ∨ c = low + 1 := by
      rw [Option.some.injEq] at h
      repeat' split at h
      all_goals omega
    rcases hcases with rfl | rfl
    · exact ⟨hne, hlow⟩
    · exact ⟨Nat.succ_ne_zero _, hhigh⟩
  · split at h
    · next hlow =>
      cases h
      rw [Bool.and_eq_true, decide_eq_true_eq] at hlow
      exact hlow
    · split at h
      · next hhigh =>
        cases h
        exact ⟨Nat.succ_ne_zero _, hhigh⟩
      · cases h

/-- **The point of a grid is rounded to the magnitude** that it was chosen for. -/
theorem isNearest_of_gridPoint? {rank c : Nat} {p : Int} (hrank : 0 < rank)
    (h : gridPoint? rank p = some c) : IsNearest (c * 10 ^ p) rank := by
  have hnearest := isNearest_of_reads hrank (spacing_pos p).2 (reads_of_gridPoint? h).2
  rwa [Nat.cast_mul, mul_div_assoc, mul_div_assoc, mul_div_assoc, spacing_eq] at hnearest

/-! ## The search -/

/-- The search ends on a grid that has a point, if there is one on its way. -/
theorem firstPoint_spec {point? : Int → Option Nat} {steps : Nat} {p : Int}
    (h : ∃ k < steps, (point? (p - k)).isSome) :
    point? (firstPoint point? steps p).2 = some (firstPoint point? steps p).1 := by
  induction steps generalizing p with
  | zero =>
    obtain ⟨k, hk, -⟩ := h
    exact absurd hk (Nat.not_lt_zero k)
  | succ steps ih =>
    rw [firstPoint]
    cases hp : point? p with
    | some c => exact hp
    | none =>
      obtain ⟨k, hk, hsome⟩ := h
      cases k with
      | zero =>
        rw [Nat.cast_zero, Int.sub_zero, hp] at hsome
        cases hsome
      | succ k =>
        refine ih ⟨k, Nat.lt_of_succ_lt_succ hk, ?_⟩
        have hstep : p - 1 - (k : Int) = p - ((k + 1 : Nat) : Int) := by omega
        rwa [hstep]

/-- A grid that is finer than the intervals has a point for every positive magnitude: the last
multiple up to it lies in its interval. -/
theorem gridPoint?_isSome {rank : Nat} {p : Int} (hrank : 0 < rank)
    (hfine : (spacing p).1 ≤ (spacing p).2) : (gridPoint? rank p).isSome := by
  obtain ⟨hnum, hden⟩ := spacing_pos p
  unfold gridPoint?
  dsimp only
  generalize (spacing p).1 = num at *
  generalize (spacing p).2 = den at *
  have hvalue := Nat.div_add_mod (2 * unitsOf rank * den) num
  have hmod := Nat.mod_lt (2 * unitsOf rank * den) hnum
  have hbefore : unitsOf (rank - 1) < unitsOf rank := by
    have hstep := unitsOf_lt_succ (rank - 1)
    rwa [Nat.sub_add_cancel hrank] at hstep
  -- the interval reaches at least one half-unit down and up
  have hdown : (lowerEnd rank + 1) * den ≤ 2 * unitsOf rank * den :=
    Nat.mul_le_mul_right den (by unfold lowerEnd; omega)
  have hup : (2 * unitsOf rank + 1) * den ≤ upperEnd rank * den :=
    Nat.mul_le_mul_right den (by unfold upperEnd; have hstep := unitsOf_lt_succ rank; omega)
  rw [Nat.succ_mul] at hdown hup
  rw [Nat.mul_comm] at hvalue
  have hne : 2 * unitsOf rank * den / num ≠ 0 := by
    intro hzero
    rw [hzero] at hvalue
    omega
  generalize 2 * unitsOf rank * den = value at *
  generalize value / num = low at *
  have hreads : reads rank (low * num) den = true := by
    unfold reads
    split
    · rw [Bool.and_eq_true, decide_eq_true_eq, decide_eq_true_eq]
      omega
    · rw [Bool.and_eq_true, decide_eq_true_eq, decide_eq_true_eq]
      omega
  rw [hreads, decide_eq_true hne, Bool.true_and, Bool.true_and, if_pos rfl]
  split <;> rfl

/-- The multiples of `10⁻³²⁴` are closer to each other than the half of a unit. -/
theorem spacing_last : (spacing (-324)).1 ≤ (spacing (-324)).2 := by
  decide +kernel

/-- **The shortest decimal of a positive magnitude is rounded to it.** -/
theorem shortest_isNearest {rank : Nat} (hrank : 0 < rank) :
    IsNearest ((shortest rank).1 * 10 ^ (shortest rank).2) rank := by
  apply isNearest_of_gridPoint? hrank
  apply firstPoint_spec
  refine ⟨digitCount (unitsOf rank / unitsInOne) + 324, by omega, ?_⟩
  have hlast : (digitCount (unitsOf rank / unitsInOne) : Int) -
      ((digitCount (unitsOf rank / unitsInOne) + 324 : Nat) : Int) = -324 := by omega
  rw [hlast]
  exact gridPoint?_isSome hrank spacing_last

end Binary64

/-! ## Layout -/

namespace Numeral

/-- Whether characters write a numeral that is not whole and has a sign and a magnitude. -/
def WritesFraction (negative : Bool) (m : ℚ) (cs : List Char) : Prop :=
  ∃ n : Numeral, n.Writes (minus negative ++ cs) ∧ n.negative = negative ∧ n.isWhole = false ∧
    n.magnitude = m

/-- Digits around a point. -/
theorem writesFraction_point (negative : Bool) {whole fraction : List Char}
    (hwhole : ∀ c ∈ whole, c.isDigit = true) (hfraction : ∀ c ∈ fraction, c.isDigit = true)
    (hne : whole ≠ []) :
    WritesFraction negative
      (Nat.ofDigitChars 10 (whole ++ fraction) 0 * 10 ^ (-(fraction.length : ℤ)))
      (whole ++ '.' :: fraction) := by
  refine ⟨⟨negative, asciiValues whole, some (asciiValues fraction), none⟩, ?_, rfl, rfl, ?_⟩
  · refine ⟨_, whole, '.' :: fraction, [], by rw [List.append_nil], signOf_minus negative,
      digitsOf_of_isDigit hwhole, .given (digitsOf_of_isDigit hfraction), .absent, ?_⟩
    exact fun h => hne (asciiValues_eq_nil_iff.1 h.1)
  · rw [magnitude_eq, coefficient, scale]
    dsimp only [Option.getD_some]
    rw [← asciiValues_append, ofDigits_asciiValues, length_asciiValues, Int.zero_sub]

/-- Digits, a point with digits behind it or none, and an exponent. -/
theorem writesFraction_exponent (negative below : Bool) {whole digits : List Char}
    {fraction : Option (List Char)} (hwhole : ∀ c ∈ whole, c.isDigit = true)
    (hfraction : ∀ c ∈ fraction.getD [], c.isDigit = true) (hne : whole ≠ [])
    (hdigits : ∀ c ∈ digits, c.isDigit = true) (hdigit : digits ≠ []) :
    WritesFraction negative
      (Nat.ofDigitChars 10 (whole ++ fraction.getD []) 0 *
        10 ^ ((if below then -(Nat.ofDigitChars 10 digits 0 : ℤ)
          else Nat.ofDigitChars 10 digits 0) - (fraction.getD []).length))
      (whole ++ (fraction.elim [] (List.cons '.') ++
        'e' :: ((if below then ['-'] else ['+']) ++ digits))) := by
  refine ⟨⟨negative, asciiValues whole, fraction.map asciiValues,
    some (below, asciiValues digits)⟩, ?_, rfl, ?_, ?_⟩
  · refine ⟨_, whole, fraction.elim [] (List.cons '.'), _, rfl, signOf_minus negative,
      digitsOf_of_isDigit hwhole, ?_, .given (.inl rfl) ?_ (digitsOf_of_isDigit hdigits) ?_, ?_⟩
    · cases fraction with
      | none => exact .absent
      | some cs => exact .given (digitsOf_of_isDigit hfraction)
    · cases below with
      | true => exact .minus
      | false => exact .plus
    · exact fun h => hdigit (asciiValues_eq_nil_iff.1 h)
    · exact fun h => hne (asciiValues_eq_nil_iff.1 h.1)
  · cases fraction <;> rfl
  · have hvalues : (fraction.map asciiValues).getD [] = asciiValues (fraction.getD []) := by
      cases fraction <;> rfl
    rw [magnitude_eq, coefficient, scale]
    dsimp only
    rw [hvalues, ← asciiValues_append, ofDigits_asciiValues, ofDigits_asciiValues,
      length_asciiValues]

end Numeral

namespace Binary64

open Numeral

/-- The text of an exponent is its sign and digits. -/
theorem exists_exponentText (e : Int) :
    ∃ digits, (exponentText e).toList = 'e' :: ((if e < 0 then ['-'] else ['+']) ++ digits) ∧
      (∀ c ∈ digits, c.isDigit = true) ∧ digits ≠ [] ∧
      Nat.ofDigitChars 10 digits 0 = e.natAbs := by
  have hmark : (if e < 0 then "e-" else "e+").toList =
      'e' :: (if e < 0 then ['-'] else ['+']) := by
    split <;> rfl
  -- an exponent has at least two digits
  refine ⟨(if e.natAbs < 10 then ['0'] else []) ++ Nat.toDigits 10 e.natAbs, ?_, ?_, ?_, ?_⟩
  · unfold exponentText
    dsimp only
    rw [String.toList_append, hmark, List.cons_append, Nat.toString_eq_ofList_toDigits]
    by_cases hshort : e.natAbs < 10
    · rw [if_pos hshort, if_pos hshort]
      simp only [String.toList_append, String.toList_ofList]
      rfl
    · rw [if_neg hshort, if_neg hshort, String.toList_ofList, List.nil_append]
  · intro c hc
    rcases List.mem_append.1 hc with hzero | hdigit
    · split at hzero
      · rw [List.mem_singleton.1 hzero]
        decide
      · cases hzero
    · exact isDigit_of_mem_toDigits c hdigit
  · exact List.append_ne_nil_of_right_ne_nil _ Nat.toDigits_ne_nil
  · split
    · rw [List.singleton_append, Nat.ofDigitChars_cons]
      exact Nat.ofDigitChars_ten_toDigits
    · rw [List.nil_append, Nat.ofDigitChars_ten_toDigits]

theorem isDigit_of_mem_zeros {k : Nat} : ∀ c ∈ List.replicate k '0', c.isDigit = true := by
  intro c hc
  rw [List.eq_of_mem_replicate hc]
  decide

variable {digits : List Char} {exponent : Int} (negative : Bool)

/-- A whole number, and a zero behind the point. -/
theorem writesFraction_of_whole (hdigits : ∀ c ∈ digits, c.isDigit = true) (hne : digits ≠ [])
    (hexponent : 0 ≤ exponent) :
    WritesFraction negative (Nat.ofDigitChars 10 digits 0 * 10 ^ exponent)
      (digits ++ List.replicate exponent.toNat '0' ++ ['.', '0']) := by
  have hwhole : ∀ c ∈ digits ++ List.replicate exponent.toNat '0', c.isDigit = true :=
    List.forall_mem_append.2 ⟨hdigits, isDigit_of_mem_zeros⟩
  have hzero : ∀ c ∈ ['0'], c.isDigit = true := List.forall_mem_singleton.2 (by decide)
  have hwrites := writesFraction_point negative hwhole hzero
    (List.append_ne_nil_of_left_ne_nil hne _)
  have hvalue : (Nat.ofDigitChars 10 (digits ++ List.replicate exponent.toNat '0' ++ ['0']) 0 : ℚ) *
      10 ^ (-(['0'].length : ℤ)) = Nat.ofDigitChars 10 digits 0 * 10 ^ exponent := by
    obtain ⟨k, rfl⟩ := Int.eq_ofNat_of_zero_le hexponent
    rw [Int.toNat_natCast, List.append_assoc, ← List.replicate_succ', Nat.ofDigitChars_append,
      Nat.ofDigitChars_replicate_zero, List.length_singleton]
    push_cast
    rw [zpow_neg, zpow_natCast]
    field_simp
    ring
  rwa [hvalue] at hwrites

/-- The point among the digits. -/
theorem writesFraction_of_among (hdigits : ∀ c ∈ digits, c.isDigit = true)
    (hexponent : exponent < 0) (hplaces : (-exponent).toNat < digits.length) :
    WritesFraction negative (Nat.ofDigitChars 10 digits 0 * 10 ^ exponent)
      (digits.take (digits.length - (-exponent).toNat) ++
        '.' :: digits.drop (digits.length - (-exponent).toNat)) := by
  have hwrites := @writesFraction_point negative
    (digits.take (digits.length - (-exponent).toNat))
    (digits.drop (digits.length - (-exponent).toNat))
    (fun c hc => hdigits c (List.mem_of_mem_take hc))
    (fun c hc => hdigits c (List.mem_of_mem_drop hc)) (by
      rw [Ne, List.take_eq_nil_iff]
      rintro (h | rfl)
      · omega
      · exact absurd hplaces (Nat.not_lt_zero _))
  have hpower : -((digits.drop (digits.length - (-exponent).toNat)).length : ℤ) = exponent := by
    rw [List.length_drop]
    omega
  rwa [List.take_append_drop, hpower] at hwrites

/-- The point in front of the digits. -/
theorem writesFraction_of_front (hdigits : ∀ c ∈ digits, c.isDigit = true)
    (hexponent : exponent < 0) (hplaces : digits.length ≤ (-exponent).toNat) :
    WritesFraction negative (Nat.ofDigitChars 10 digits 0 * 10 ^ exponent)
      ('0' :: '.' :: (List.replicate ((-exponent).toNat - digits.length) '0' ++ digits)) := by
  have hzero : ∀ c ∈ ['0'], c.isDigit = true := List.forall_mem_singleton.2 (by decide)
  have hfraction : ∀ c ∈ List.replicate ((-exponent).toNat - digits.length) '0' ++ digits,
      c.isDigit = true := List.forall_mem_append.2 ⟨isDigit_of_mem_zeros, hdigits⟩
  have hwrites := writesFraction_point negative hzero hfraction (List.cons_ne_nil _ _)
  have hvalue : Nat.ofDigitChars 10
      (['0'] ++ (List.replicate ((-exponent).toNat - digits.length) '0' ++ digits)) 0 =
        Nat.ofDigitChars 10 digits 0 := by
    rw [← List.append_assoc, List.singleton_append, ← List.replicate_succ, Nat.ofDigitChars_append,
      Nat.ofDigitChars_replicate_zero, Nat.mul_zero]
  have hpower : -((List.replicate ((-exponent).toNat - digits.length) '0' ++ digits).length : ℤ) =
      exponent := by
    rw [List.length_append, List.length_replicate]
    omega
  rwa [hvalue, hpower] at hwrites

/-- One digit in front of the point, and a power of ten. -/
theorem writesFraction_of_powers (hdigits : ∀ c ∈ digits, c.isDigit = true) (hne : digits ≠ []) :
    WritesFraction negative (Nat.ofDigitChars 10 digits 0 * 10 ^ exponent)
      (digits.take 1 ++ ((if (digits.drop 1).isEmpty then "" else
        "." ++ String.ofList (digits.drop 1)).toList ++
          (exponentText (exponent + digits.length - 1)).toList)) := by
  obtain ⟨power, htext, hpower, hpowerNe, hvalue⟩ :=
    exists_exponentText (exponent + digits.length - 1)
  obtain ⟨d, rest, rfl⟩ := List.exists_cons_of_ne_nil hne
  obtain ⟨hd, hrest⟩ := List.forall_mem_cons.1 hdigits
  have hfirst : ∀ c ∈ [d], c.isDigit = true := List.forall_mem_singleton.2 hd
  -- a single digit has no point behind it
  obtain ⟨fraction, hfraction, hpoint⟩ : ∃ fraction : Option (List Char), fraction.getD [] = rest ∧
      (if rest.isEmpty then "" else "." ++ String.ofList rest).toList =
        fraction.elim [] (List.cons '.') := by
    cases rest with
    | nil => exact ⟨none, rfl, rfl⟩
    | cons c rest =>
      refine ⟨some (c :: rest), rfl, ?_⟩
      rw [List.isEmpty_cons, if_neg Bool.false_ne_true, String.toList_append]
      simp only [String.toList_ofList]
      rfl
  have hwrites := writesFraction_exponent negative
    (decide (exponent + (d :: rest).length - 1 < 0)) hfirst (hfraction.symm ▸ hrest)
    (List.cons_ne_nil _ _) hpower hpowerNe
  have hexponent : (if exponent + (d :: rest).length - 1 < 0 then
      -((exponent + (d :: rest).length - 1).natAbs : ℤ)
      else (exponent + (d :: rest).length - 1).natAbs) - rest.length = exponent := by
    rw [List.length_cons]
    split <;> omega
  simp only [decide_eq_true_eq, hfraction, hvalue, hexponent] at hwrites
  rw [List.take_one, List.head?_cons, Option.toList_some, List.drop_one, List.tail_cons, hpoint,
    htext]
  exact hwrites

/-- **The layout is exact.** A decimal is laid out as a numeral that is not whole and has the value
of the decimal. -/
theorem writesFraction_decimalText (coefficient : Nat) (exponent : Int) :
    WritesFraction negative (coefficient * 10 ^ exponent)
      (decimalText coefficient exponent).toList := by
  have hdigits : ∀ c ∈ Nat.toDigits 10 coefficient, c.isDigit = true := isDigit_of_mem_toDigits
  have hne : Nat.toDigits 10 coefficient ≠ [] := Nat.toDigits_ne_nil
  have hvalue : Nat.ofDigitChars 10 (Nat.toDigits 10 coefficient) 0 = coefficient :=
    Nat.ofDigitChars_ten_toDigits
  unfold decimalText
  dsimp only
  generalize Nat.toDigits 10 coefficient = digits at *
  rw [← hvalue]
  -- without powers of ten: the point stands behind the digits, among them or in front of them
  split
  · split
    · next hexponent =>
      simp only [String.toList_append, String.toList_ofList]
      exact writesFraction_of_whole negative hdigits hne hexponent
    · next hexponent =>
      rw [not_le] at hexponent
      split
      · next hplaces =>
        simp only [String.toList_append, String.toList_ofList, List.append_assoc]
        exact writesFraction_of_among negative hdigits hexponent hplaces
      · next hplaces =>
        simp only [String.toList_append, String.toList_ofList]
        exact writesFraction_of_front negative hdigits hexponent (not_lt.1 hplaces)
  · rw [String.toList_append, String.toList_append, String.toList_ofList, List.append_assoc]
    exact writesFraction_of_powers negative hdigits hne

/-! ## Texts of floating-point numbers -/

/-- A magnitude is written as a decimal that is rounded to it. -/
theorem exists_magnitudeText (rank : Fin magnitudeCount) :
    ∃ (coefficient : Nat) (exponent : Int),
      magnitudeText rank = decimalText coefficient exponent ∧
        RoundsTo negative (coefficient * 10 ^ exponent) (.finite negative rank) := by
  by_cases hzero : rank.val = 0
  · have hrank : Binary64.finite negative rank = zero negative := by
      rw [zero, Binary64.finite.injEq]
      exact ⟨rfl, Fin.ext hzero⟩
    refine ⟨0, 0, ?_, ?_⟩
    · rw [magnitudeText, if_pos hzero]
      decide
    · rw [hrank, Nat.cast_zero, zero_mul]
      exact zero_roundsTo_of_tiny negative le_rfl (zpow_nonneg (by norm_num) _)
  · refine ⟨(shortest rank).1, (shortest rank).2, ?_, ?_⟩
    · rw [magnitudeText, if_neg hzero]
    · exact (shortest_isNearest (Nat.pos_of_ne_zero hzero)).roundsTo negative rank.isLt

/-- **Floating-point numbers are read back.** The text of a finite number is read as the number. -/
theorem ofText?_text (rank : Fin magnitudeCount) :
    Number.ofText? (Binary64.finite negative rank).text =
      some (.float (.finite negative rank)) := by
  obtain ⟨coefficient, exponent, htext, hrounds⟩ := exists_magnitudeText negative rank
  obtain ⟨n, hwrites, hnegative, hwhole, hmagnitude⟩ :=
    writesFraction_decimalText negative coefficient exponent
  have hchars : (Binary64.finite negative rank).text.toList =
      minus negative ++ (decimalText coefficient exponent).toList := by
    rw [text, String.toList_append, htext]
    cases negative <;> rfl
  have hround := n.toBinary64_roundsTo
  rw [hnegative, hmagnitude] at hround
  rw [← hchars] at hwrites
  rw [hwrites.ofText?, Number.ofNumeral_of_not_short, hround.unique hrounds]
  rw [hwhole]
  exact fun h => Bool.false_ne_true h.1

end Binary64

end Verdict
