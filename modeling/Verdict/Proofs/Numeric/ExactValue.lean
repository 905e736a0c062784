import Mathlib.Algebra.Order.Field.Power
import Mathlib.Algebra.Order.Ring.Rat
import Mathlib.Algebra.Order.Monoid.Unbundled.WithTop
import Mathlib.Data.Sign.Basic
import Mathlib.Order.Compare
import Mathlib.Tactic.FieldSimp
import Mathlib.Tactic.NormNum
import Mathlib.Tactic.Ring
import Verdict.Numeric.Number
/-!
# The exact values of numbers

A number stands for a rational or for one of the two infinities; `NaN` stands for nothing. The value
of a floating-point number is read off the fields of its format, `(1 + fraction / 2⁵²)` times a
power of two for a normal number and a multiple of `2⁻¹⁰⁷⁴` for a subnormal one, and the value of an
integer is the integer. Nothing here is rounded.

The order of two numbers is computed on counts of units. This module says that those counts are the
exact values (`magnitude_eq_unitsOf`), so that the order of two numbers is the order of their exact
values (`order?_eq_cmp`), whether they are integers, floating-point numbers or one of each.
-/

namespace Verdict

/-! ## Extended rationals -/

/-- The rationals and the two infinities. -/
abbrev ExtendedRat := WithBot (WithTop ℚ)

/-- The sign that an order is told by: negative for below, zero for level, positive for above. -/
def signOf : Ordering → SignType
  | .lt => -1
  | .eq => 0
  | .gt => 1

namespace ExtendedRat

/-- The exact difference of two extended rationals. An infinity is infinitely far from everything
but itself. -/
def minus : ExtendedRat → ExtendedRat → ExtendedRat
  | (p : ℚ), (q : ℚ) => ((p - q : ℚ) : WithTop ℚ)
  | a, b => if a = b then 0 else if a < b then ⊥ else ⊤

theorem coe_lt_coe {p q : ℚ} : ((p : WithTop ℚ) : ExtendedRat) < (q : WithTop ℚ) ↔ p < q := by
  rw [WithBot.coe_lt_coe, WithTop.coe_lt_coe]

theorem coe_lt_top (p : ℚ) : ((p : WithTop ℚ) : ExtendedRat) < ⊤ :=
  WithBot.coe_lt_coe.2 (WithTop.coe_lt_top p)

theorem cmp_coe (p q : ℚ) : cmp ((p : WithTop ℚ) : ExtendedRat) (q : WithTop ℚ) = cmp p q :=
  StrictMono.cmp_map_eq (fun _ _ h => coe_lt_coe.2 h) p q

theorem sign_coe (p : ℚ) : SignType.sign ((p : WithTop ℚ) : ExtendedRat) = SignType.sign p := by
  have hzero : ((0 : ℚ) : WithTop ℚ) = (0 : ExtendedRat) := rfl
  rw [sign_apply, sign_apply, ← hzero]
  simp only [coe_lt_coe]

theorem sign_sub (p q : ℚ) : SignType.sign (p - q) = signOf (cmp p q) := by
  rcases lt_trichotomy p q with h | h | h
  · rw [sign_neg (sub_neg.2 h), (cmp_eq_lt_iff p q).2 h, signOf]
  · rw [h, sub_self, sign_zero, cmp_self_eq_eq, signOf]
  · rw [sign_pos (sub_pos.2 h), (cmp_eq_gt_iff p q).2 h, signOf]

/-- The sign of a difference tells the order. -/
theorem sign_minus (a b : ExtendedRat) : SignType.sign (minus a b) = signOf (cmp a b) := by
  have hinfinite : SignType.sign (if a = b then 0 else if a < b then ⊥ else ⊤ : ExtendedRat) =
      signOf (cmp a b) := by
    rcases lt_trichotomy a b with h | h | h
    · rw [if_neg h.ne, if_pos h, (cmp_eq_lt_iff a b).2 h]
      exact sign_neg (WithBot.bot_lt_coe _)
    · rw [if_pos h, (cmp_eq_eq_iff a b).2 h]
      exact sign_zero
    · rw [if_neg h.ne', if_neg h.not_gt, (cmp_eq_gt_iff a b).2 h]
      exact sign_pos (coe_lt_top 0)
  rcases a with _ | _ | p <;> rcases b with _ | _ | q
  case some.some.some.some =>
    calc SignType.sign (((p - q : ℚ) : WithTop ℚ) : ExtendedRat)
      _ = SignType.sign (p - q) := sign_coe (p - q)
      _ = signOf (cmp p q) := sign_sub p q
      _ = signOf (cmp ((p : WithTop ℚ) : ExtendedRat) (q : WithTop ℚ)) := by rw [cmp_coe]
  -- one of the two is infinite
  all_goals exact hinfinite

/-- What is held against something greater stands lower. -/
theorem signOf_cmp_antitone (x : ExtendedRat) {a b : ExtendedRat} (h : a ≤ b) :
    signOf (cmp x b) ≤ signOf (cmp x a) := by
  rcases lt_trichotomy x a with ha | ha | ha
  · rw [(cmp_eq_lt_iff x a).2 ha, (cmp_eq_lt_iff x b).2 (ha.trans_le h)]
  · rw [(cmp_eq_eq_iff x a).2 ha]
    rcases (ha.trans_le h).lt_or_eq with hb | hb
    · rw [(cmp_eq_lt_iff x b).2 hb]
      decide
    · rw [(cmp_eq_eq_iff x b).2 hb]
  · rw [(cmp_eq_gt_iff x a).2 ha]
    cases cmp x b <;> decide

end ExtendedRat

namespace Binary64

/-! ## Floating-point numbers by their fields -/

/-- The exponent field of a rank. -/
def exponentField (rank : Nat) : Nat := rank / fractionCount

/-- The fraction field of a rank. -/
def fractionField (rank : Nat) : Nat := rank % fractionCount

/-- The magnitude of a rank, from its fields: subnormal for the exponent field 0, else normal. -/
def magnitude (rank : Nat) : ℚ :=
  if exponentField rank = 0 then (fractionField rank : ℚ) * 2 ^ (-1074 : ℤ)
  else (1 + (fractionField rank : ℚ) / 2 ^ 52) * 2 ^ ((exponentField rank : ℤ) - 1023)

/-- The exact value of a floating-point number; `NaN` has none. -/
def value? : Binary64 → Option ExtendedRat
  | .nan => none
  | .infinite negative => some (if negative then ⊥ else ⊤)
  | .finite negative rank =>
    some ((if negative then -magnitude rank else magnitude rank : ℚ) : WithTop ℚ)

theorem rank_eq_fields (rank : Nat) :
    rank = exponentField rank * fractionCount + fractionField rank := by
  rw [exponentField, fractionField, Nat.mul_comm]
  exact (Nat.div_add_mod rank fractionCount).symm

/-- The significand of a normal number has a leading one, that of a subnormal number has not. -/
theorem significandOf_eq (rank : Nat) :
    significandOf rank =
      if exponentField rank = 0 then fractionField rank
      else fractionCount + fractionField rank := by
  have hrank := rank_eq_fields rank
  unfold significandOf shiftOf
  change rank - (exponentField rank - 1) * fractionCount = _
  split
  · next h => rw [h] at hrank ⊢; omega
  · next h =>
    have hpred : exponentField rank * fractionCount =
        (exponentField rank - 1) * fractionCount + fractionCount := by
      rw [← Nat.succ_mul, Nat.succ_eq_add_one, Nat.sub_add_cancel (Nat.pos_of_ne_zero h)]
    omega

theorem cast_pow_two (k : Nat) : ((Nat.pow 2 k : ℕ) : ℚ) = 2 ^ k := by
  rw [Nat.pow_eq]
  push_cast
  rfl

theorem cast_unitsInOne : (unitsInOne : ℚ) = 2 ^ unitExponent := by
  unfold unitsInOne
  exact cast_pow_two _

theorem cast_unitsInOne_pos : (0 : ℚ) < unitsInOne := by
  rw [cast_unitsInOne]
  exact pow_pos two_pos unitExponent

/-- **Units are exact.** The magnitude that the fields give is the count of units over the number of
units in one. -/
theorem magnitude_eq_unitsOf (rank : Nat) : magnitude rank = unitsOf rank / unitsInOne := by
  have hunit : (2 : ℚ) ^ (-1074 : ℤ) = (unitsInOne : ℚ)⁻¹ := by
    rw [cast_unitsInOne, ← zpow_natCast, ← zpow_neg]
    rfl
  have hunits : (unitsInOne : ℚ) ≠ 0 := cast_unitsInOne_pos.ne'
  rw [magnitude, unitsOf, significandOf_eq, Nat.cast_mul, cast_pow_two]
  -- subnormal numbers are not shifted; the others bring their implied bit
  split
  · next h =>
    have hshift : shiftOf rank = 0 := by rw [shiftOf, ← exponentField, h]
    rw [hunit, hshift, pow_zero, mul_one, div_eq_mul_inv]
  · next h =>
    have hexponent : (exponentField rank : ℤ) - 1023 = (shiftOf rank : ℤ) + 52 + -1074 := by
      rw [shiftOf, ← exponentField]
      omega
    have hfraction : (fractionCount : ℚ) = 2 ^ 52 := by norm_num
    rw [hexponent, zpow_add₀ two_ne_zero, zpow_add₀ two_ne_zero, hunit, zpow_natCast,
      Nat.cast_add, hfraction]
    generalize (unitsInOne : ℚ) = u at hunits
    rw [show (2 : ℚ) ^ (52 : ℤ) = 2 ^ 52 from zpow_natCast 2 52]
    field_simp

end Binary64

/-! ## The extended line -/

namespace Extended

/-- The value of a place on the extended line, whose counts are in units. -/
def toRat : Extended → ExtendedRat
  | .bottom => ⊥
  | .count n => ((n / unitsInOne : ℚ) : WithTop ℚ)
  | .top => ⊤

/-- Counts of units are ordered as what they count. -/
theorem cmp_toRat (a b : Extended) : cmp a.toRat b.toRat = a.order b := by
  have hcount : ∀ m n : Int, cmp (count m).toRat (count n).toRat = compare m n := by
    intro m n
    have hmono : StrictMono fun k : ℤ => (count k).toRat := by
      intro j k hjk
      simp only [toRat, ExtendedRat.coe_lt_coe]
      exact div_lt_div_of_pos_right (Int.cast_lt.2 hjk) Binary64.cast_unitsInOne_pos
    rw [hmono.cmp_map_eq, cmp_eq_compare]
  rcases a with _ | m | _ <;> rcases b with _ | n | _
  case bottom.bottom => exact cmp_self_eq_eq _
  case bottom.count => exact (cmp_eq_lt_iff _ _).2 (WithBot.bot_lt_coe _)
  case bottom.top => exact (cmp_eq_lt_iff _ _).2 bot_lt_top
  case count.bottom => exact (cmp_eq_gt_iff _ _).2 (WithBot.bot_lt_coe _)
  case count.count => exact hcount m n
  case count.top => exact (cmp_eq_lt_iff _ _).2 (ExtendedRat.coe_lt_top _)
  case top.bottom => exact (cmp_eq_gt_iff _ _).2 bot_lt_top
  case top.count => exact (cmp_eq_gt_iff _ _).2 (ExtendedRat.coe_lt_top _)
  case top.top => exact cmp_self_eq_eq _

end Extended

namespace Number

variable {x y : Number} {a b : ExtendedRat}

/-- The exact value of a number; `NaN` has none. -/
def value? : Number → Option ExtendedRat
  | .int n => some ((n : ℚ) : WithTop ℚ)
  | .float x => x.value?

/-- The place of a number on the extended line is its exact value. -/
theorem value?_eq (x : Number) : x.value? = x.extended?.map Extended.toRat := by
  rcases x with n | _ | negative | ⟨negative, rank⟩
  · have hn : (n : ℚ) = (n * (unitsInOne : ℤ) : ℤ) / unitsInOne := by
      push_cast
      rw [mul_div_cancel_right₀ _ Binary64.cast_unitsInOne_pos.ne']
    rw [value?, extended?, Option.map_some, Extended.toRat, ← hn]
  · rfl
  · cases negative <;> rfl
  · rw [value?, Binary64.value?, extended?, Option.map_some, Extended.toRat, Binary64.units,
      Binary64.magnitude_eq_unitsOf]
    cases negative with
    | true => rw [if_pos rfl, if_pos rfl, Int.cast_neg, Int.cast_natCast, neg_div]
    | false => rw [if_neg Bool.false_ne_true, if_neg Bool.false_ne_true, Int.cast_natCast]

theorem value?_eq_none_iff : x.value? = none ↔ x = .float .nan := by
  rcases x with n | _ | negative | ⟨negative, rank⟩ <;> simp [value?, Binary64.value?]

/-- **Comparison is exact.** The order of two numbers is that of their exact values. -/
theorem order?_eq_cmp (hx : x.value? = some a) (hy : y.value? = some b) :
    x.order? y = some (cmp a b) := by
  rw [value?_eq, Option.map_eq_some_iff] at hx hy
  obtain ⟨a, ha, rfl⟩ := hx
  obtain ⟨b, hb, rfl⟩ := hy
  rw [order?, ha, hb, Extended.cmp_toRat]

/-! ## Texts write no `NaN` -/

theorem ofUnits_ne_nan (negative : Bool) (num den : Nat) :
    Binary64.ofUnits negative num den ≠ .nan := by
  unfold Binary64.ofUnits
  split <;> exact nofun

/-- Rounding a decimal ends in a finite number or in an infinity. -/
theorem ofDecimal_ne_nan (negative : Bool) (coefficient : Nat) (exponent : Int) :
    Binary64.ofDecimal negative coefficient exponent ≠ .nan := by
  unfold Binary64.ofDecimal Binary64.ofRatio Binary64.zero
  dsimp only
  split_ifs
  · exact nofun
  · exact nofun
  · exact nofun
  · exact ofUnits_ne_nan _ _ _
  · exact ofUnits_ne_nan _ _ _

theorem ofNumeral_ne_nan (n : Numeral) : ofNumeral n ≠ .float .nan := by
  unfold ofNumeral
  split
  · exact nofun
  · rw [Ne, Number.float.injEq]
    exact ofDecimal_ne_nan _ _ _

theorem ofText?_ne_nan {s : String} (h : ofText? s = some x) : x ≠ .float .nan := by
  obtain ⟨n, -, rfl⟩ := Option.map_eq_some_iff.1 h
  exact ofNumeral_ne_nan n

/-- A text that writes a number writes one with an exact value. -/
theorem exists_value_of_ofText? {s : String} (h : ofText? s = some x) :
    ∃ a, x.value? = some a :=
  Option.ne_none_iff_exists'.1 (value?_eq_none_iff.not.2 (ofText?_ne_nan h))

end Number

end Verdict
