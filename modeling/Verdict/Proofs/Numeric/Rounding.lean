import Mathlib.Algebra.Order.Group.Abs
import Mathlib.Data.Nat.Digits.Defs
import Mathlib.Order.Monotone.Basic
import Mathlib.Tactic.Linarith
import Verdict.Proofs.Numeric.ExactValue
/-!
# Rounding to the nearest number of the format

The magnitudes stand in one strictly ascending row that goes on past the last finite one, so a
rational lies between two neighbours, and it is rounded to the nearer of them, at the same distance
to the one of even rank (`nearestRank_isNearest`). Past the midpoint between the last magnitude and
the next, `2¹⁰²⁴ - 2⁹⁷⁰`, the result is infinite. `RoundsTo` states this of a result by the fields
of the format alone, and there is one such result (`RoundsTo.unique`).

A decimal is rounded once, from its exact value, and the decimals that are far too large or far too
small to be formed are rounded as all others are (`ofDecimal_roundsTo`).
-/

namespace Verdict.Binary64

/-! ## The row of magnitudes -/

/-- The magnitude of a rank that is given by its shift and significand. The significand may be one
too large for the shift: it then belongs to the first magnitude of the next binary order. -/
theorem unitsOf_add {shift k : Nat} (hk : k ≤ 2 * fractionCount)
    (hnormal : shift = 0 ∨ fractionCount ≤ k) :
    unitsOf (shift * fractionCount + k) = k * 2 ^ shift := by
  by_cases hlast : k = 2 * fractionCount
  · have hshift : shiftOf (shift * fractionCount + k) = shift + 1 := by
      unfold shiftOf fractionCount at *
      omega
    have hsignificand : significandOf (shift * fractionCount + k) = fractionCount := by
      rw [significandOf, hshift]
      unfold fractionCount at *
      omega
    rw [unitsOf, hshift, hsignificand, hlast, Nat.pow_eq, Nat.pow_succ, Nat.mul_comm 2,
      Nat.mul_assoc, Nat.mul_comm 2]
  · have hshift : shiftOf (shift * fractionCount + k) = shift := by
      unfold shiftOf fractionCount at *
      omega
    have hsignificand : significandOf (shift * fractionCount + k) = k := by
      rw [significandOf, hshift, Nat.add_sub_cancel_left]
    rw [unitsOf, hshift, hsignificand, Nat.pow_eq]

theorem exists_shift (rank : Nat) :
    ∃ shift k, rank = shift * fractionCount + k ∧ k < 2 * fractionCount ∧
      (shift = 0 ∨ fractionCount ≤ k) := by
  refine ⟨shiftOf rank, significandOf rank, ?_, ?_, ?_⟩ <;>
    unfold significandOf shiftOf fractionCount <;> omega

theorem unitsOf_lt_succ (rank : Nat) : unitsOf rank < unitsOf (rank + 1) := by
  obtain ⟨shift, k, rfl, hk, hnormal⟩ := exists_shift rank
  rw [Nat.add_assoc, unitsOf_add hk.le hnormal,
    unitsOf_add hk (hnormal.imp_right Nat.le_succ_of_le)]
  exact Nat.mul_lt_mul_of_pos_right (Nat.lt_succ_self k) (Nat.two_pow_pos shift)

theorem strictMono_magnitude : StrictMono magnitude := by
  refine strictMono_nat_of_lt_succ fun rank => ?_
  rw [magnitude_eq_unitsOf, magnitude_eq_unitsOf]
  exact div_lt_div_of_pos_right (Nat.cast_lt.2 (unitsOf_lt_succ rank)) cast_unitsInOne_pos

/-! ## The nearest of the row -/

/-- Whether the magnitude of a rank is nearest to a rational, a tie going to the even rank. -/
def IsNearest (m : ℚ) (rank : Nat) : Prop :=
  ∀ other, |magnitude rank - m| ≤ |magnitude other - m| ∧
    (|magnitude other - m| = |magnitude rank - m| → other ≠ rank → Even rank)

/-- Between two neighbours the nearer one is nearest of all. -/
theorem isNearest_of_between {m : ℚ} {low rank : Nat} (hlow : magnitude low ≤ m)
    (hhigh : m < magnitude (low + 1))
    (hrank : (rank = low ∧ m - magnitude low ≤ magnitude (low + 1) - m ∧
        (m - magnitude low = magnitude (low + 1) - m → Even low)) ∨
      (rank = low + 1 ∧ magnitude (low + 1) - m ≤ m - magnitude low ∧
        (magnitude (low + 1) - m = m - magnitude low → Even (low + 1)))) :
    IsNearest m rank := by
  intro other
  -- others lie below the lower neighbour or above the upper one, and so no nearer than these
  rcases le_or_gt other low with hother | hother
  · have hvalue : magnitude other ≤ magnitude low := strictMono_magnitude.monotone hother
    have hdistance : |magnitude other - m| = m - magnitude other := by
      rw [abs_sub_comm, abs_of_nonneg (by linarith)]
    rw [hdistance]
    rcases hrank with ⟨rfl, hnear, heven⟩ | ⟨rfl, hnear, heven⟩
    · rw [abs_sub_comm, abs_of_nonneg (by linarith)]
      refine ⟨by linarith, fun hsame hne => ?_⟩
      have hlt := strictMono_magnitude (lt_of_le_of_ne hother hne)
      linarith
    · rw [abs_of_nonneg (by linarith)]
      refine ⟨by linarith, fun hsame _ => heven (by linarith)⟩
  · have hvalue : magnitude (low + 1) ≤ magnitude other := strictMono_magnitude.monotone hother
    have hdistance : |magnitude other - m| = magnitude other - m := abs_of_nonneg (by linarith)
    rw [hdistance]
    rcases hrank with ⟨rfl, hnear, heven⟩ | ⟨rfl, hnear, heven⟩
    · rw [abs_sub_comm, abs_of_nonneg (by linarith)]
      refine ⟨by linarith, fun hsame _ => heven (by linarith)⟩
    · rw [abs_of_nonneg (by linarith)]
      refine ⟨by linarith, fun hsame hne => ?_⟩
      have hlt := strictMono_magnitude (lt_of_le_of_ne hother hne.symm)
      linarith

/-- A quotient is rounded down or up, to the side that the remainder is nearer to. -/
theorem roundHalfEven_spec (num den : Nat) :
    (roundHalfEven num den = num / den ∧ 2 * (num % den) ≤ den ∧
      (2 * (num % den) = den → Even (num / den))) ∨
    (roundHalfEven num den = num / den + 1 ∧ den ≤ 2 * (num % den) ∧
      (2 * (num % den) = den → Even (num / den + 1))) := by
  unfold roundHalfEven
  dsimp only
  simp only [Nat.even_iff]
  split
  · left; omega
  · split
    · right; omega
    · rcases Nat.mod_two_eq_zero_or_one (num / den) with h | h
      · left; omega
      · right; omega

/-- The shift is as large as a significand of 53 bits needs, and no larger. -/
theorem significand_bounds (num den : Nat) :
    let shift := Nat.log2 (num / den) - 52
    num / (den * 2 ^ shift) < 2 * fractionCount ∧
      (shift = 0 ∨ fractionCount ≤ num / (den * 2 ^ shift)) := by
  intro shift
  have hquotient : num / (den * 2 ^ shift) = num / den / 2 ^ shift :=
    (Nat.div_div_eq_div_mul num den (2 ^ shift)).symm
  have hupper : num / den < 2 ^ (Nat.log2 (num / den) + 1) := Nat.lt_log2_self
  rw [hquotient]
  -- a short quotient is not shifted; a long one is, to exactly 53 bits
  by_cases hsmall : Nat.log2 (num / den) ≤ 52
  · have hshift : shift = 0 := Nat.sub_eq_zero_of_le hsmall
    have hpow : 2 ^ (Nat.log2 (num / den) + 1) ≤ 2 ^ 53 :=
      Nat.pow_le_pow_right two_pos (Nat.succ_le_succ hsmall)
    rw [hshift, Nat.pow_zero, Nat.div_one]
    exact ⟨by unfold fractionCount; omega, .inl rfl⟩
  · have hlog : Nat.log2 (num / den) = shift + 52 := by omega
    have hne : num / den ≠ 0 := by
      intro hzero
      rw [hzero] at hsmall
      exact hsmall (by decide)
    have hlower : 2 ^ Nat.log2 (num / den) ≤ num / den := Nat.log2_self_le hne
    rw [hlog] at hlower hupper
    constructor
    · rw [Nat.div_lt_iff_lt_mul (Nat.two_pow_pos shift)]
      calc num / den < 2 ^ (shift + 52 + 1) := hupper
        _ = 2 * fractionCount * 2 ^ shift := by
          have hcount : 2 ^ (52 + 1) = 2 * fractionCount := by decide
          rw [Nat.add_assoc, Nat.pow_add, Nat.mul_comm, hcount]
    · right
      rw [Nat.le_div_iff_mul_le (Nat.two_pow_pos shift)]
      calc fractionCount * 2 ^ shift = 2 ^ (shift + 52) := by rw [Nat.pow_add, Nat.mul_comm]
        _ ≤ num / den := hlower

theorem magnitude_add {shift k : Nat} (hk : k ≤ 2 * fractionCount)
    (hnormal : shift = 0 ∨ fractionCount ≤ k) :
    magnitude (shift * fractionCount + k) = k * 2 ^ shift / unitsInOne := by
  rw [magnitude_eq_unitsOf, unitsOf_add hk hnormal]
  push_cast
  rfl

/-- How far a quotient lies from the two magnitudes around it, both distances in the same parts of a
unit. -/
theorem distances {num den shift k r : Nat} (hden : 0 < den) (hk : k < 2 * fractionCount)
    (hnormal : shift = 0 ∨ fractionCount ≤ k) (hnum : num = den * 2 ^ shift * k + r) :
    (num : ℚ) / den / unitsInOne - magnitude (shift * fractionCount + k) =
        r / (den * unitsInOne) ∧
      magnitude (shift * fractionCount + k + 1) - (num : ℚ) / den / unitsInOne =
        ((den * 2 ^ shift : Nat) - r) / (den * unitsInOne) := by
  have hden' : (den : ℚ) ≠ 0 := Nat.cast_ne_zero.2 hden.ne'
  have hunits : (unitsInOne : ℚ) ≠ 0 := cast_unitsInOne_pos.ne'
  rw [Nat.add_assoc, magnitude_add hk.le hnormal,
    magnitude_add hk (hnormal.imp_right Nat.le_succ_of_le), hnum]
  push_cast
  generalize (unitsInOne : ℚ) = u at hunits
  constructor
  · field_simp
    ring
  · field_simp
    ring

theorem even_shift_add {shift k : Nat} (h : Even k) : Even (shift * fractionCount + k) := by
  rw [Nat.even_iff] at h ⊢
  unfold fractionCount
  omega

/-- **Rounding finds the nearest magnitude**, ties going to the even rank. -/
theorem nearestRank_isNearest (num : Nat) {den : Nat} (hden : 0 < den) :
    IsNearest ((num : ℚ) / den / unitsInOne) (nearestRank num den) := by
  obtain ⟨hk, hnormal⟩ := significand_bounds num den
  rw [nearestRank, Nat.pow_eq]
  generalize Nat.log2 (num / den) - 52 = shift at hk hnormal ⊢
  have hrounded := roundHalfEven_spec num (den * 2 ^ shift)
  have hnum := (Nat.div_add_mod num (den * 2 ^ shift)).symm
  have hmod : num % (den * 2 ^ shift) < den * 2 ^ shift :=
    Nat.mod_lt num (Nat.mul_pos hden (Nat.two_pow_pos shift))
  generalize num / (den * 2 ^ shift) = k at hk hnormal hrounded hnum
  generalize num % (den * 2 ^ shift) = r at hrounded hnum hmod
  obtain ⟨hdown, hup⟩ := distances hden hk hnormal hnum
  have hscale : (0 : ℚ) < den * unitsInOne := mul_pos (Nat.cast_pos.2 hden) cast_unitsInOne_pos
  have hmod' : (r : ℚ) < (den * 2 ^ shift : Nat) := Nat.cast_lt.2 hmod
  have hlow : magnitude (shift * fractionCount + k) ≤ (num : ℚ) / den / unitsInOne := by
    rw [← sub_nonneg, hdown]
    exact div_nonneg (Nat.cast_nonneg r) hscale.le
  have hhigh : (num : ℚ) / den / unitsInOne < magnitude (shift * fractionCount + k + 1) := by
    rw [← sub_pos, hup]
    exact div_pos (sub_pos.2 hmod') hscale
  refine isNearest_of_between hlow hhigh ?_
  rw [hdown, hup, div_le_div_iff_of_pos_right hscale, div_le_div_iff_of_pos_right hscale,
    div_left_inj' hscale.ne', div_left_inj' hscale.ne']
  -- what is left compares the remainder with the half of the divisor
  rcases hrounded with ⟨hvalue, hnear, heven⟩ | ⟨hvalue, hnear, heven⟩
  · have hnear' : (2 * r : ℚ) ≤ (den * 2 ^ shift : Nat) := by exact_mod_cast hnear
    refine .inl ⟨by rw [hvalue], by linarith, fun htie => even_shift_add (heven ?_)⟩
    have htie' : (2 * r : ℚ) = (den * 2 ^ shift : Nat) := by linarith
    exact_mod_cast htie'
  · have hnear' : ((den * 2 ^ shift : Nat) : ℚ) ≤ 2 * r := by exact_mod_cast hnear
    refine .inr ⟨by rw [hvalue, Nat.add_assoc], by linarith, fun htie => ?_⟩
    have htie' : (2 * r : ℚ) = (den * 2 ^ shift : Nat) := by linarith
    rw [Nat.add_assoc]
    exact even_shift_add (heven (by exact_mod_cast htie'))

/-! ## The result of rounding -/

/-- The midpoint between the last finite magnitude and the one that would come next. -/
def overflowBound : ℚ := 2 ^ 1024 - 2 ^ 970

/-- Whether a rational magnitude is rounded to a number of the format: from the bound on to
infinity, else to a finite number whose magnitude is nearest, a tie going to the even rank. -/
inductive RoundsTo (negative : Bool) (m : ℚ) : Binary64 → Prop
  /-- The magnitude is too large. -/
  | infinite (large : overflowBound ≤ m) : RoundsTo negative m (.infinite negative)
  /-- No finite number lies nearer. -/
  | finite {rank : Fin magnitudeCount} (small : m < overflowBound)
    (nearest : ∀ other : Fin magnitudeCount,
      |magnitude rank - m| ≤ |magnitude other - m| ∧
        (|magnitude other - m| = |magnitude rank - m| → other ≠ rank → Even rank.val)) :
    RoundsTo negative m (.finite negative rank)

/-- The bound lies halfway between the last finite magnitude and the next of the row. -/
theorem two_mul_overflowBound :
    2 * overflowBound = magnitude (magnitudeCount - 1) + magnitude magnitudeCount := by
  have hlast : magnitudeCount - 1 = 2045 * fractionCount + (2 * fractionCount - 1) := by decide
  have hnext : magnitudeCount = 2045 * fractionCount + 2 * fractionCount := by decide
  have hquotient : (2 : ℚ) ^ 2045 / unitsInOne = 2 * 2 ^ 970 := by
    have hexponent : 2045 = 970 + 1 + unitExponent := by decide
    rw [cast_unitsInOne, div_eq_iff (pow_ne_zero _ two_ne_zero), ← pow_succ', ← pow_add, hexponent]
  have hbinade : (2 : ℚ) ^ 1024 = 2 ^ 54 * 2 ^ 970 := by rw [← pow_add]
  have hcount : ((2 * fractionCount - 1 : Nat) : ℚ) = 2 ^ 53 - 1 := by norm_num
  have hcount' : ((2 * fractionCount : Nat) : ℚ) = 2 ^ 53 := by norm_num
  rw [hlast, magnitude_add (Nat.sub_le _ _) (.inr (by decide)), hnext,
    magnitude_add le_rfl (.inr (by decide)), mul_div_assoc, mul_div_assoc, hquotient, overflowBound,
    hbinade, hcount, hcount']
  generalize (2 : ℚ) ^ 970 = p
  ring

/-- A magnitude reaches the bound exactly when the nearest rank lies past the last finite one. -/
theorem IsNearest.lt_iff {m : ℚ} {rank : Nat} (h : IsNearest m rank) :
    rank < magnitudeCount ↔ m < overflowBound := by
  have hbound := two_mul_overflowBound
  have hstep : magnitude (magnitudeCount - 1) < magnitude magnitudeCount :=
    strictMono_magnitude (by decide)
  constructor
  · intro hrank
    by_contra hm
    have hle : rank ≤ magnitudeCount - 1 := Nat.le_sub_one_of_lt hrank
    have hvalue : magnitude rank ≤ magnitude (magnitudeCount - 1) :=
      strictMono_magnitude.monotone hle
    obtain ⟨hnear, heven⟩ := h magnitudeCount
    have hnext : |magnitude magnitudeCount - m| ≤ m - magnitude (magnitudeCount - 1) :=
      abs_le.2 ⟨by linarith, by linarith⟩
    have hdistance : |magnitude rank - m| = m - magnitude rank := by
      rw [abs_sub_comm, abs_of_nonneg (by linarith)]
    rw [hdistance] at hnear heven
    -- only the midpoint itself is left, and there the last rank loses because it is odd
    have hlast : rank = magnitudeCount - 1 :=
      strictMono_magnitude.injective (le_antisymm hvalue (by linarith))
    have hodd : ¬ Even (magnitudeCount - 1) := by decide
    exact hodd (hlast ▸ heven (by linarith) hrank.ne')
  · intro hm
    by_contra hrank
    have hvalue : magnitude magnitudeCount ≤ magnitude rank :=
      strictMono_magnitude.monotone (not_lt.1 hrank)
    have hnear := (h (magnitudeCount - 1)).1
    have hlast : |magnitude (magnitudeCount - 1) - m| < magnitude magnitudeCount - m :=
      abs_lt.2 ⟨by linarith, by linarith⟩
    have hdistance := le_abs_self (magnitude rank - m)
    linarith

theorem IsNearest.roundsTo {m : ℚ} {rank : Nat} (h : IsNearest m rank) (negative : Bool)
    (hlt : rank < magnitudeCount) : RoundsTo negative m (.finite negative ⟨rank, hlt⟩) := by
  refine .finite (h.lt_iff.1 hlt) fun other => ?_
  obtain ⟨hle, heven⟩ := h other
  exact ⟨hle, fun htie hne => heven htie fun heq => hne (Fin.ext heq)⟩

theorem ofUnits_roundsTo (negative : Bool) (num : Nat) {den : Nat} (hden : 0 < den) :
    RoundsTo negative ((num : ℚ) / den / unitsInOne) (ofUnits negative num den) := by
  have hnearest := nearestRank_isNearest num hden
  unfold ofUnits
  split
  · next hlt => exact hnearest.roundsTo negative hlt
  · next hge => exact .infinite (not_lt.1 fun hlt => hge (hnearest.lt_iff.2 hlt))

theorem ofRatio_roundsTo (negative : Bool) (num : Nat) {den : Nat} (hden : 0 < den) :
    RoundsTo negative ((num : ℚ) / den) (ofRatio negative num den) := by
  have hunits : ((num * unitsInOne : Nat) : ℚ) / den / unitsInOne = num / den := by
    rw [Nat.cast_mul, mul_div_right_comm, mul_div_cancel_right₀ _ cast_unitsInOne_pos.ne']
  rw [← hunits]
  exact ofUnits_roundsTo negative (num * unitsInOne) hden

/-- Two different finite results would both be even, and then a rank between them lies nearer. -/
theorem not_lt_of_nearest {m : ℚ} {a b : Fin magnitudeCount}
    (ha : ∀ other : Fin magnitudeCount, |magnitude a - m| ≤ |magnitude other - m| ∧
      (|magnitude other - m| = |magnitude a - m| → other ≠ a → Even a.val))
    (hb : ∀ other : Fin magnitudeCount, |magnitude b - m| ≤ |magnitude other - m| ∧
      (|magnitude other - m| = |magnitude b - m| → other ≠ b → Even b.val)) : ¬ a < b := by
  intro hlt
  have hsame : |magnitude a - m| = |magnitude b - m| := le_antisymm (ha b).1 (hb a).1
  obtain ⟨i, hi⟩ := (ha b).2 hsame.symm hlt.ne'
  obtain ⟨j, hj⟩ := (hb a).2 hsame hlt.ne
  have hbetween : a.val + 1 < b.val := by
    have hval : a.val < b.val := hlt
    omega
  have hleft : magnitude a < magnitude (a.val + 1) := strictMono_magnitude (Nat.lt_succ_self _)
  have hright : magnitude (a.val + 1) < magnitude b := strictMono_magnitude hbetween
  have hmiddle : m - magnitude a = magnitude b - m := by
    rcases abs_eq_abs.1 hsame with h | h <;> linarith
  have hnear : |magnitude a - m| ≤ |magnitude (a.val + 1) - m| :=
    (ha ⟨a.val + 1, hbetween.trans b.isLt⟩).1
  have hcloser : |magnitude (a.val + 1) - m| < m - magnitude a :=
    abs_lt.2 ⟨by linarith, by linarith⟩
  have hdistance := neg_abs_le (magnitude a - m)
  linarith

/-- **The result of rounding is determined.** -/
theorem RoundsTo.unique {negative : Bool} {m : ℚ} {x y : Binary64} (hx : RoundsTo negative m x)
    (hy : RoundsTo negative m y) : x = y := by
  cases hx with
  | infinite hlarge =>
    cases hy with
    | infinite _ => rfl
    | finite hsmall _ => exact absurd hlarge (not_le.2 hsmall)
  | finite hsmall ha =>
    cases hy with
    | infinite hlarge => exact absurd hlarge (not_le.2 hsmall)
    | finite _ hb =>
      rw [le_antisymm (not_lt.1 (not_lt_of_nearest hb ha)) (not_lt.1 (not_lt_of_nearest ha hb))]

/-! ## Decimals -/

theorem digitCount_le_iff {n k : Nat} (hk : 0 < k) : digitCount n ≤ k ↔ n < 10 ^ k :=
  Nat.length_toDigits_le_iff (by decide) hk

theorem digitCount_spec {n : Nat} (hn : n ≠ 0) :
    0 < digitCount n ∧ 10 ^ (digitCount n - 1) ≤ n ∧ n < 10 ^ digitCount n := by
  have hpos : 0 < digitCount n := Nat.length_toDigits_pos
  refine ⟨hpos, ?_, (digitCount_le_iff hpos).1 le_rfl⟩
  by_cases hone : digitCount n - 1 = 0
  · rw [hone]
    exact Nat.pos_of_ne_zero hn
  · rw [← not_lt, ← digitCount_le_iff (Nat.pos_of_ne_zero hone)]
    omega

/-- A positive decimal lies between the powers of ten around its leading digit. -/
theorem decimal_bounds {coefficient : Nat} (hcoefficient : coefficient ≠ 0) (exponent : ℤ) :
    (10 : ℚ) ^ (exponent + digitCount coefficient - 1) ≤ coefficient * 10 ^ exponent ∧
      coefficient * 10 ^ exponent < (10 : ℚ) ^ (exponent + digitCount coefficient) := by
  obtain ⟨hpos, hlower, hupper⟩ := digitCount_spec hcoefficient
  have hscale : (0 : ℚ) < 10 ^ exponent := zpow_pos (by norm_num) exponent
  have hten : (10 : ℚ) ≠ 0 := by norm_num
  constructor
  · have hpower : exponent + digitCount coefficient - 1 =
        ((digitCount coefficient - 1 : Nat) : ℤ) + exponent := by omega
    rw [hpower, zpow_add₀ hten, zpow_natCast]
    exact mul_le_mul_of_nonneg_right (by exact_mod_cast hlower) hscale.le
  · rw [add_comm exponent, zpow_add₀ hten, zpow_natCast]
    exact mul_lt_mul_of_pos_right (by exact_mod_cast hupper) hscale

theorem overflowBound_le_of_large {m : ℚ} (h : (10 : ℚ) ^ 310 ≤ m) : overflowBound ≤ m := by
  have hbase : (2 : ℚ) ^ 205 ≤ 10 ^ 62 := by norm_num
  have hpos : (0 : ℚ) ≤ 2 ^ 970 := pow_nonneg zero_le_two 970
  calc overflowBound ≤ (2 : ℚ) ^ 1024 := sub_le_self _ hpos
    _ ≤ 2 ^ (205 * 5) := pow_le_pow_right₀ one_le_two (by norm_num)
    _ = (2 ^ 205) ^ 5 := pow_mul 2 205 5
    _ ≤ (10 ^ 62) ^ 5 := pow_le_pow_left₀ (pow_nonneg zero_le_two 205) hbase 5
    _ = 10 ^ 310 := (pow_mul 10 62 5).symm
    _ ≤ m := h

/-- A magnitude so small that the reader does not compute it rounds to zero. -/
theorem zero_roundsTo_of_tiny (negative : Bool) {m : ℚ} (hzero : 0 ≤ m)
    (h : m ≤ 10 ^ (-330 : ℤ)) : RoundsTo negative m (zero negative) := by
  have hscaled : m * 10 ^ 330 ≤ 1 := by
    rwa [zpow_neg, ← one_div, le_div_iff₀ (zpow_pos (by norm_num) 330)] at h
  have hfirst : magnitude 0 = 0 := by
    rw [magnitude_eq_unitsOf, unitsOf_zero, Nat.cast_zero, zero_div]
  have hsecond : magnitude 1 = 1 / unitsInOne := by
    have hunit : unitsOf 1 = 1 := by decide
    rw [magnitude_eq_unitsOf, hunit, Nat.cast_one]
  have hbase : (2 : ℚ) ^ 108 ≤ 10 ^ 33 := by norm_num
  -- half of the least positive number is 2⁻¹⁰⁷⁵, and 2¹⁰⁷⁵ ≤ 10³³⁰
  have hunits : 2 * (unitsInOne : ℚ) ≤ 10 ^ 330 :=
    calc 2 * (unitsInOne : ℚ) = 2 ^ (1074 + 1) := by rw [cast_unitsInOne, ← pow_succ']
      _ ≤ 2 ^ (108 * 10) := pow_le_pow_right₀ one_le_two (by norm_num)
      _ = (2 ^ 108) ^ 10 := pow_mul 2 108 10
      _ ≤ (10 ^ 33) ^ 10 := pow_le_pow_left₀ (pow_nonneg zero_le_two 108) hbase 10
      _ = 10 ^ 330 := (pow_mul 10 33 10).symm
  have hhalf : 2 * m ≤ 1 / unitsInOne := by
    rw [le_div_iff₀ cast_unitsInOne_pos]
    calc 2 * m * unitsInOne = m * (2 * unitsInOne) := by ring
      _ ≤ m * 10 ^ 330 := mul_le_mul_of_nonneg_left hunits hzero
      _ ≤ 1 := hscaled
  have hpos : (0 : ℚ) < 1 / unitsInOne := one_div_pos.2 cast_unitsInOne_pos
  have hlow : magnitude 0 ≤ m := hfirst.trans_le hzero
  have hhigh : m < magnitude (0 + 1) := by
    rw [hsecond]
    linarith
  have hnearest : IsNearest m 0 := by
    refine isNearest_of_between hlow hhigh (.inl ⟨rfl, ?_, fun _ => Even.zero⟩)
    rw [hfirst, hsecond]
    linarith
  exact hnearest.roundsTo negative _

theorem decimal_eq_of_nonneg (coefficient : Nat) {exponent : ℤ} (h : 0 ≤ exponent) :
    (coefficient * 10 ^ exponent : ℚ) =
      ((coefficient * Nat.pow 10 exponent.toNat : Nat) : ℚ) / (1 : Nat) := by
  have hpower : exponent = (exponent.toNat : ℤ) := (Int.toNat_of_nonneg h).symm
  rw [Nat.pow_eq, hpower, zpow_natCast, Int.toNat_natCast]
  push_cast
  rw [div_one]

theorem decimal_eq_of_neg (coefficient : Nat) {exponent : ℤ} (h : ¬ 0 ≤ exponent) :
    (coefficient * 10 ^ exponent : ℚ) =
      (coefficient : ℚ) / (Nat.pow 10 (-exponent).toNat : Nat) := by
  have hpower : exponent = -((-exponent).toNat : ℤ) := by omega
  rw [Nat.pow_eq]
  push_cast
  rw [div_eq_mul_inv, ← zpow_natCast, ← zpow_neg, ← hpower]

/-- **A decimal is correctly rounded**, also where no power of ten is formed. -/
theorem ofDecimal_roundsTo (negative : Bool) (coefficient : Nat) (exponent : ℤ) :
    RoundsTo negative (coefficient * 10 ^ exponent) (ofDecimal negative coefficient exponent) := by
  have hten : (1 : ℚ) ≤ 10 := by norm_num
  unfold ofDecimal
  split
  · next hzero =>
    rw [hzero, Nat.cast_zero, zero_mul]
    exact zero_roundsTo_of_tiny negative le_rfl (zpow_nonneg (by norm_num) _)
  · next hcoefficient =>
    obtain ⟨hlower, hupper⟩ := decimal_bounds hcoefficient exponent
    dsimp only
    split
    · next hlarge =>
      -- so many digits in front of the point overflow
      refine .infinite (overflowBound_le_of_large (le_trans ?_ hlower))
      rw [← zpow_natCast]
      exact zpow_le_zpow_right₀ hten (by push_cast; omega)
    · split
      · next htiny =>
        -- so many zeros behind it are less than half of the least number
        have hpos : (0 : ℚ) ≤ coefficient * 10 ^ exponent :=
          mul_nonneg (Nat.cast_nonneg _) (zpow_nonneg (by norm_num) exponent)
        have hbound : (coefficient * 10 ^ exponent : ℚ) ≤ 10 ^ (-330 : ℤ) :=
          hupper.le.trans (zpow_le_zpow_right₀ hten (by omega))
        exact zero_roundsTo_of_tiny negative hpos hbound
      · split
        · next hnonneg =>
          rw [decimal_eq_of_nonneg coefficient hnonneg]
          exact ofRatio_roundsTo negative _ one_pos
        · next hneg =>
          rw [decimal_eq_of_neg coefficient hneg]
          exact ofRatio_roundsTo negative _ (Nat.pow_pos (by decide))

end Verdict.Binary64
