import Verdict.Numeric.Binary64
/-!
# The shortest decimal of a floating-point number

A magnitude is written with the fewest decimal digits that read back as itself. The reals that round
to a magnitude form an interval whose ends lie half-way to its neighbours; the ends belong to it
exactly when the rank is even, since a half goes to the even rank. Multiples of `10 ^ p` are tried
from coarse grids to fine ones. The first grid with a point in the interval gives the digits, and of
two points on it the nearer is taken, the even one when both are equally near.

The text is positional for a leading digit from the fourth decimal place to the sixteenth place
before the point, with `.0` after a whole number, and in powers of ten otherwise.
-/

namespace Verdict.Binary64

/-! ## The interval of a magnitude -/

/-- The lower end of the interval of a rank, in half-units of `2⁻¹⁰⁷⁵`. -/
def lowerEnd (rank : Nat) : Nat := unitsOf (rank - 1) + unitsOf rank

/-- The upper end of the interval of a rank, in half-units of `2⁻¹⁰⁷⁵`. -/
def upperEnd (rank : Nat) : Nat := unitsOf rank + unitsOf (rank + 1)

/-- Whether `num / den` half-units lie in the interval of a rank. -/
def reads (rank num den : Nat) : Bool :=
  if rank % 2 = 0 then lowerEnd rank * den ≤ num && num ≤ upperEnd rank * den
  else lowerEnd rank * den < num && num < upperEnd rank * den

/-! ## Decimal grids -/

/-- The grid of the multiples of `10 ^ p`: its spacing in half-units, as a numerator and a
denominator. -/
def spacing (p : Int) : Nat × Nat :=
  if 0 ≤ p then (Nat.pow 10 p.toNat * (2 * unitsInOne), 1)
  else (2 * unitsInOne, Nat.pow 10 (-p).toNat)

/-- The point of a grid that reads back as the magnitude of a rank and is nearest to it, if the grid
has such a point. -/
def gridPoint? (rank : Nat) (p : Int) : Option Nat :=
  let (num, den) := spacing p
  let value := 2 * unitsOf rank * den
  let low := value / num
  let lowReads := low ≠ 0 && reads rank (low * num) den
  let highReads := reads rank ((low + 1) * num) den
  -- of two points that read back the nearer one, and of two equally near ones the even one
  if lowReads && highReads then
    let toLow := value - low * num
    let toHigh := (low + 1) * num - value
    some (if toLow < toHigh then low else if toHigh < toLow then low + 1 else low + low % 2)
  else if lowReads then some low
  else if highReads then some (low + 1)
  else none

/-- The first grid from `10 ^ p` downwards that has a point: the point and the grid's exponent. -/
def firstPoint (point? : Int → Option Nat) : Nat → Int → Nat × Int
  | 0, p => (0, p)
  | steps + 1, p =>
    match point? p with
    | some c => (c, p)
    | none => firstPoint point? steps (p - 1)

/-- The coefficient and the exponent of the shortest decimal of a positive magnitude. The spacing
of `10⁻³²⁴` is finer than the format, so the search ends there at the latest. -/
def shortest (rank : Nat) : Nat × Int :=
  let top := digitCount (unitsOf rank / unitsInOne)
  firstPoint (gridPoint? rank) (top + 325) top

/-! ## Layout -/

/-- The exponent of a number in powers of ten: its sign and at least two digits. -/
def exponentText (e : Int) : String :=
  let digits := toString e.natAbs
  (if e < 0 then "e-" else "e+") ++ (if e.natAbs < 10 then "0" ++ digits else digits)

/-- The text of `coefficient · 10 ^ exponent` for a positive coefficient. -/
def decimalText (coefficient : Nat) (exponent : Int) : String :=
  let digits := Nat.toDigits 10 coefficient
  let n := digits.length
  -- the place of the leading digit decides about the layout
  let lead : Int := exponent + n - 1
  if -4 ≤ lead ∧ lead < 16 then
    if 0 ≤ exponent then
      String.ofList (digits ++ List.replicate exponent.toNat '0') ++ ".0"
    else
      let places := (-exponent).toNat
      if places < n then
        String.ofList (digits.take (n - places)) ++ "." ++ String.ofList (digits.drop (n - places))
      else "0." ++ String.ofList (List.replicate (places - n) '0' ++ digits)
  else
    let fraction := digits.drop 1
    String.ofList (digits.take 1) ++
      (if fraction.isEmpty then "" else "." ++ String.ofList fraction) ++ exponentText lead

/-- The text of a magnitude. -/
def magnitudeText (rank : Nat) : String :=
  if rank = 0 then "0.0"
  else
    let d := shortest rank
    decimalText d.1 d.2

/-- The text of a floating-point number. -/
def text : Binary64 → String
  | .nan => "nan"
  | .infinite negative => if negative then "-inf" else "inf"
  | .finite negative rank => (if negative then "-" else "") ++ magnitudeText rank

end Verdict.Binary64
