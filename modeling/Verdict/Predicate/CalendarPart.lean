import Verdict.Predicate.Error
/-!
# Weekdays and months in clauses

A clause names a weekday or a month by its number or by its English name, in full or shortened, in
any letter case and between blanks. A number is written in ASCII digits and may have leading zeros.
-/

namespace Verdict

open Text

/-- A part of the calendar that a clause can name. -/
inductive CalendarPart where
  /-- A weekday, Monday being 1. -/
  | day
  /-- A month, January being 1. -/
  | month
  deriving DecidableEq, Repr

namespace CalendarPart

/-- What the part is called in messages. -/
def label : CalendarPart → String
  | .day => "day"
  | .month => "month"

/-- The greatest number of the part. -/
def last : CalendarPart → Nat
  | .day => 7
  | .month => 12

/-- The names of the part and their numbers. -/
def names : CalendarPart → List (String × Nat)
  | .day =>
    [("monday", 1), ("mon", 1), ("tuesday", 2), ("tue", 2), ("tues", 2), ("wednesday", 3),
      ("wed", 3), ("thursday", 4), ("thu", 4), ("thur", 4), ("thurs", 4), ("friday", 5), ("fri", 5),
      ("saturday", 6), ("sat", 6), ("sunday", 7), ("sun", 7)]
  | .month =>
    [("january", 1), ("jan", 1), ("february", 2), ("feb", 2), ("march", 3), ("mar", 3),
      ("april", 4), ("apr", 4), ("may", 5), ("june", 6), ("jun", 6), ("july", 7), ("jul", 7),
      ("august", 8), ("aug", 8), ("september", 9), ("sep", 9), ("sept", 9), ("october", 10),
      ("oct", 10), ("november", 11), ("nov", 11), ("december", 12), ("dec", 12)]

/-- The number with a name. -/
def numberOf? (p : CalendarPart) (name : String) : Option Nat :=
  (p.names.find? fun e => e.1 = name).map Prod.snd

/-- The number that a text of ASCII digits writes. -/
def digitsNumber (cs : List Char) : Nat :=
  ofDigits 10 (cs.map fun c => c.toNat - 48)

/-- The number of the weekday or month that an argument names. -/
def read (p : CalendarPart) (argument : String) : Except (Failure PredicateError) Nat :=
  let token := lowered (trim argument)
  let cs := token.toList
  if !cs.isEmpty && cs.all isAsciiDigit then
    if digitLimit < cs.length then .error (.fault (.longNumeral cs.length))
    else
      let n := digitsNumber cs
      if 1 ≤ n ∧ n ≤ p.last then .ok n else .error (.declared (.outOfRange p.label p.last n))
  else
    match p.numberOf? token with
    | some n => .ok n
    | none => .error (.declared (.unrecognized p.label argument))

/-- The numbers that the arguments name, or the failure of the first that names none. -/
def readAll (p : CalendarPart) : List String → Except (Failure PredicateError) (List Nat)
  | [] => .ok []
  | a :: as => do return (← p.read a) :: (← p.readAll as)

end CalendarPart

end Verdict
