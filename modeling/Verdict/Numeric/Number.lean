import Verdict.Numeric.Numeral
import Verdict.Text.Blank
import Verdict.Fault
/-!
# Numbers

A number is an integer of any size or a floating-point number. Numbers of both kinds are compared by
their exact values: a finite floating-point number is a whole multiple of `2⁻¹⁰⁷⁴`, and so is every
integer, hence nothing is rounded. `NaN` is not comparable.

A text is a number when it is a numeral between blanks. It is an integer when it has neither point
nor exponent and no more digits than the limit; else it is read as floating point.
-/

namespace Verdict

open Text

/-- A number. -/
inductive Number where
  /-- An integer. -/
  | int (value : Int)
  /-- A floating-point number. -/
  | float (value : Binary64)
  deriving DecidableEq, Repr

/-- A value on the extended line: an integer count of units, or one of its two ends. -/
inductive Extended where
  /-- Below all others. -/
  | bottom
  /-- A count of units. -/
  | count (n : Int)
  /-- Above all others. -/
  | top
  deriving DecidableEq, Repr

/-- The order of the extended line. -/
def Extended.order : Extended → Extended → Ordering
  | .bottom, .bottom => .eq
  | .bottom, _ => .lt
  | _, .bottom => .gt
  | .top, .top => .eq
  | .top, _ => .gt
  | _, .top => .lt
  | .count m, .count n => compare m n

namespace Number

/-- The value of a number in units of `2⁻¹⁰⁷⁴`; `NaN` has none. -/
def extended? : Number → Option Extended
  | .int n => some (.count (n * (unitsInOne : Int)))
  | .float .nan => none
  | .float (.infinite negative) => some (if negative then .bottom else .top)
  | .float (.finite negative rank) => some (.count (Binary64.units negative rank))

/-- The order of two numbers by exact value; `none` if one of them is `NaN`. -/
def order? (x y : Number) : Option Ordering :=
  match x.extended?, y.extended? with
  | some a, some b => some (a.order b)
  | _, _ => none

/-- Whether two numbers have the same value; `NaN` equals nothing. -/
def equal (x y : Number) : Bool := x.order? y = some .eq

/-- Whether the number is zero. -/
def isZero (x : Number) : Bool := x.equal (.int 0)

/-- The number that a numeral writes. -/
def ofNumeral (n : Numeral) : Number :=
  if n.isWhole ∧ n.whole.length ≤ digitLimit then .int n.toInt else .float n.toBinary64

/-- The number that a text writes between blanks, if it writes one. -/
def ofText? (s : String) : Option Number :=
  (Numeral.ofChars? (trimChars s.toList)).map ofNumeral

end Number

/-- The decimal text of an integer of any size. -/
def integerText (n : Int) : String :=
  String.ofList ((if n < 0 then ['-'] else []) ++ Nat.toDigits 10 n.natAbs)

/-- The least absolute value of the integers with more digits than the limit. -/
def longBound : Nat := Nat.pow 10 digitLimit

/-- The decimal text of an integer that has no more digits than the limit. -/
def integerText? (n : Int) : Except Fault String :=
  if n.natAbs < longBound then .ok (integerText n) else .error .longInteger

end Verdict
