import Verdict.Calendar.Date
import Verdict.Text.Digit
/-!
# Reading dates

A date text is `YYYY-MM-DD` or `YYYYMMDD`, or a week date `YYYY-Www-D` or `YYYYWwwD` whose day may
be left out and is then Monday. Digits are ASCII digits. The text as a whole takes seven, eight or
ten bytes; what stands behind a complete date within that length is not looked at.
-/

namespace Verdict.Date

open Text

/-- The number that the next `width` characters write in ASCII digits, and the characters behind
them. -/
def fixedDigits? : Nat → Nat → List Char → Option (Nat × List Char)
  | 0, n, cs => some (n, cs)
  | _ + 1, _, [] => none
  | width + 1, n, c :: cs =>
    if isAsciiDigit c then fixedDigits? width (10 * n + (c.toNat - 48)) cs else none

/-- The characters behind a hyphen where one is asked for. -/
def separator? (asked : Bool) (cs : List Char) : Option (List Char) :=
  if asked then
    match cs with
    | '-' :: rest => some rest
    | _ => none
  else some cs

/-- The date that a year, the week digits and what follows them write. -/
def ofWeekChars? (year : Nat) (hyphens : Bool) (cs : List Char) : Option Date := do
  let (week, rest) ← fixedDigits? 2 0 cs
  if rest.isEmpty then ofWeek? year week 1
  else
    let rest ← separator? hyphens rest
    let (weekday, _) ← fixedDigits? 1 0 rest
    ofWeek? year week weekday

/-- The date that a year, the month digits and what follows them write. -/
def ofMonthChars? (year : Nat) (hyphens : Bool) (cs : List Char) : Option Date := do
  let (month, rest) ← fixedDigits? 2 0 cs
  let rest ← separator? hyphens rest
  let (day, _) ← fixedDigits? 2 0 rest
  (make year month day).toOption

/-- The date that the characters start with. -/
def ofChars? (cs : List Char) : Option Date := do
  let (year, rest) ← fixedDigits? 4 0 cs
  let hyphens := rest.head? = some '-'
  match if hyphens then rest.drop 1 else rest with
  | 'W' :: rest => ofWeekChars? year hyphens rest
  | rest => ofMonthChars? year hyphens rest

/-- The date that a text writes. -/
def ofText? (s : String) : Option Date :=
  if s.utf8ByteSize = 7 ∨ s.utf8ByteSize = 8 ∨ s.utf8ByteSize = 10 then ofChars? s.toList else none

end Verdict.Date
