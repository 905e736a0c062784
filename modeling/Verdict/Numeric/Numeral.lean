import Verdict.Numeric.Binary64
import Verdict.Text.Digit
/-!
# Numerals

A numeral is a decimal number text: an optional sign, digits with an optional point among, before or
behind them, and an optional exponent with an optional sign. Any decimal digit of Unicode counts as
a digit, and digits of several scripts may be mixed. Nothing else may stand in the text.
-/

namespace Verdict

open Text

/-- A decimal number text in its parts; digits are given by their values. -/
structure Numeral where
  /-- Whether a minus sign stands in front. -/
  negative : Bool
  /-- The digits before the point. -/
  whole : List Nat
  /-- The digits behind the point, if there is a point. -/
  fraction : Option (List Nat)
  /-- Whether the exponent is negative, and its digits. -/
  exponent : Option (Bool × List Nat)
  deriving DecidableEq, Repr

namespace Numeral

/-- The values of the leading decimal digits, and the characters behind them. -/
def digits : List Char → List Nat × List Char
  | [] => ([], [])
  | c :: cs =>
    match digitValue? c with
    | some d => let r := digits cs; (d :: r.1, r.2)
    | none => ([], c :: cs)

/-- Whether a leading sign is a minus, and the characters behind the sign; no sign is a plus. -/
def sign : List Char → Bool × List Char
  | '+' :: cs => (false, cs)
  | '-' :: cs => (true, cs)
  | cs => (false, cs)

/-- The point and the digits behind it, if a point comes first. -/
def point : List Char → Option (List Nat) × List Char
  | '.' :: cs => let r := digits cs; (some r.1, r.2)
  | cs => (none, cs)

/-- The exponent that takes up all the characters; no characters are no exponent. -/
def exponent? : List Char → Option (Option (Bool × List Nat))
  | [] => some none
  | c :: cs =>
    if c = 'e' ∨ c = 'E' then
      let s := sign cs
      match digits s.2 with
      | (d :: ds, []) => some (some (s.1, d :: ds))
      | _ => none
    else none

/-- The numeral that the characters write, all of them. -/
def ofChars? (cs : List Char) : Option Numeral :=
  let s := sign cs
  let w := digits s.2
  let f := point w.2
  if w.1 = [] ∧ (f.1 = none ∨ f.1 = some []) then none
  else (exponent? f.2).map fun e => ⟨s.1, w.1, f.1, e⟩

/-- Whether the numeral is written without point and exponent. -/
def isWhole (n : Numeral) : Bool :=
  n.fraction.isNone && n.exponent.isNone

/-- The integer that a numeral without point and exponent writes. -/
def toInt (n : Numeral) : Int :=
  if n.negative then -(ofDigits 10 n.whole : Int) else ofDigits 10 n.whole

/-- The digits of the numeral without its point, as one number. -/
def coefficient (n : Numeral) : Nat :=
  ofDigits 10 (n.whole ++ n.fraction.getD [])

/-- The power of ten by which the coefficient is multiplied. -/
def scale (n : Numeral) : Int :=
  let e : Int :=
    match n.exponent with
    | none => 0
    | some (negative, ds) => if negative then -(ofDigits 10 ds : Int) else ofDigits 10 ds
  e - (n.fraction.getD []).length

/-- The floating-point number nearest to the numeral. -/
def toBinary64 (n : Numeral) : Binary64 :=
  Binary64.ofDecimal n.negative n.coefficient n.scale

end Numeral

end Verdict
