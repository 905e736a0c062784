/-!
# Binary floating point in 64 bits

A number of this format is `NaN`, an infinity, or a sign and a magnitude. The magnitudes stand in
one ascending row, `0`, the least positive magnitude, and so on up to the greatest; a finite number
is kept as its sign and its *rank* in that row. So every value of the type is a number of the
format, and every number but the zeros of two signs has one value. All magnitudes are whole
multiples of `2⁻¹⁰⁷⁴`, and comparison, sum and product are computed on those multiples, exactly,
before anything is rounded.
-/

namespace Verdict

/-- The count of normal fractions, `2⁵²`: the ranks of one binary order of magnitude. -/
abbrev fractionCount : Nat := 4503599627370496

/-- The count of finite magnitudes. -/
abbrev magnitudeCount : Nat := 2047 * fractionCount

/-- The exponent of the unit: magnitudes are multiples of `2⁻¹⁰⁷⁴`. -/
abbrev unitExponent : Nat := 1074

/-- The number of units that make one. -/
def unitsInOne : Nat := Nat.pow 2 unitExponent

/-- A floating-point number of 64 bits. -/
inductive Binary64 where
  /-- The result that is no number. -/
  | nan
  /-- An infinity of either sign. -/
  | infinite (negative : Bool)
  /-- A finite number, by its sign and the rank of its magnitude. -/
  | finite (negative : Bool) (rank : Fin magnitudeCount)
  deriving DecidableEq, Repr

namespace Binary64

/-! ## Magnitudes -/

/-- How many binary orders a rank lies above the least one, where magnitudes are `2⁻¹⁰⁷⁴` apart. -/
def shiftOf (rank : Nat) : Nat := rank / fractionCount - 1

/-- The significand of the magnitude of a rank. -/
def significandOf (rank : Nat) : Nat := rank - shiftOf rank * fractionCount

/-- The magnitude of a rank, counted in units of `2⁻¹⁰⁷⁴`. -/
def unitsOf (rank : Nat) : Nat := significandOf rank * Nat.pow 2 (shiftOf rank)

@[simp] theorem unitsOf_zero : unitsOf 0 = 0 := by decide

/-- A quotient rounded to the nearest whole number, a half going to the even neighbour. -/
def roundHalfEven (num den : Nat) : Nat :=
  let q := num / den
  let r := num % den
  if 2 * r < den then q else if den < 2 * r then q + 1 else q + q % 2

/-- The rank of the magnitude nearest to `num / den` units, ties to the even rank. It may lie past
the last magnitude. -/
def nearestRank (num den : Nat) : Nat :=
  -- 53 significant bits are kept, and fewer of the subnormal magnitudes
  let shift := Nat.log2 (num / den) - 52
  shift * fractionCount + roundHalfEven num (den * Nat.pow 2 shift)

/-- The number whose magnitude is nearest to `num / den` units; past the last magnitude, infinity.
-/
def ofUnits (negative : Bool) (num den : Nat) : Binary64 :=
  if h : nearestRank num den < magnitudeCount then .finite negative ⟨nearestRank num den, h⟩
  else .infinite negative

/-- Zero of either sign. -/
def zero (negative : Bool) : Binary64 := .finite negative ⟨0, by decide⟩

/-- The number nearest to a quotient of whole numbers. -/
def ofRatio (negative : Bool) (num den : Nat) : Binary64 :=
  ofUnits negative (num * unitsInOne) den

/-- The number nearest to an integer. -/
def ofInt (n : Int) : Binary64 :=
  ofRatio (n < 0) n.natAbs 1

/-- The number of decimal digits of a positive number, and 1 for zero. -/
def digitCount (n : Nat) : Nat := (Nat.toDigits 10 n).length

/-- The number nearest to `coefficient · 10 ^ exponent`. A decimal whose leading digit stands beyond
the 310th place is infinite, and one below the 330th decimal place is zero, so that no long power of
ten has to be formed. -/
def ofDecimal (negative : Bool) (coefficient : Nat) (exponent : Int) : Binary64 :=
  if coefficient = 0 then zero negative
  else
    let top := exponent + digitCount coefficient
    if top > 310 then .infinite negative
    else if top < -330 then zero negative
    else if 0 ≤ exponent then ofRatio negative (coefficient * Nat.pow 10 exponent.toNat) 1
    else ofRatio negative coefficient (Nat.pow 10 (-exponent).toNat)

/-! ## Signed values -/

/-- The value of a finite number in units of `2⁻¹⁰⁷⁴`. -/
def units (negative : Bool) (rank : Nat) : Int :=
  if negative then -(unitsOf rank : Int) else unitsOf rank

/-- The number nearest to `n / den` units; a zero takes the given sign. -/
def ofSignedUnits (zeroNegative : Bool) (n : Int) (den : Nat) : Binary64 :=
  ofUnits (if n = 0 then zeroNegative else n < 0) n.natAbs den

/-- Whether a number carries the sign of the negative numbers; `NaN` does not. -/
def isNegative : Binary64 → Bool
  | .nan => false
  | .infinite negative => negative
  | .finite negative _ => negative

/-- The number with the opposite sign. -/
def neg : Binary64 → Binary64
  | .nan => .nan
  | .infinite negative => .infinite !negative
  | .finite negative rank => .finite (!negative) rank

/-- The sum, rounded once. Opposite infinities have none, and a zero sum is negative only when both
terms are. -/
def add : Binary64 → Binary64 → Binary64
  | .nan, _ => .nan
  | _, .nan => .nan
  | .infinite s, .infinite t => if s = t then .infinite s else .nan
  | .infinite s, .finite _ _ => .infinite s
  | .finite _ _, .infinite t => .infinite t
  | .finite s a, .finite t b => ofSignedUnits (s && t) (units s a + units t b) 1

/-- Whether a number is zero, of either sign. -/
def isZero : Binary64 → Bool
  | .finite _ rank => rank.val = 0
  | _ => false

/-- The product, rounded once. Zero times infinity has none. -/
def mul : Binary64 → Binary64 → Binary64
  | .nan, _ => .nan
  | _, .nan => .nan
  | .finite s a, .finite t b =>
    ofUnits (s != t) (unitsOf a * unitsOf b) unitsInOne
  | x, y =>
    if x.isZero || y.isZero then .nan else .infinite (x.isNegative != y.isNegative)

@[simp] theorem neg_neg (x : Binary64) : x.neg.neg = x := by
  cases x <;> simp [neg]

end Binary64

end Verdict
