import Verdict.Calendar.Moment
import Verdict.Yaml.Problem
/-!
# Timestamps

A timestamp is a date, `2017-03-29`, or a date and a time of day with an optional fraction of a
second and an optional offset, `2017-03-29T10:00:00.5 +2:00`. Between the two stand a `T` or blanks;
months, days, hours and the hours of an offset may have one digit where a time follows.
-/

namespace Verdict.Yaml

/-- The offset of a timestamp from universal time. -/
inductive Zone where
  /-- Universal time. -/
  | universal
  /-- So many hours and minutes behind or ahead. -/
  | shifted (behind : Bool) (hours minutes : Nat)
  deriving DecidableEq, Repr

/-- The time of day of a timestamp. -/
structure TimeOfDay where
  /-- The hour. -/
  hour : Nat
  /-- The minute. -/
  minute : Nat
  /-- The second. -/
  second : Nat
  /-- The digits of the fraction of a second. -/
  fraction : List Char
  /-- The offset, if it is given. -/
  zone : Option Zone
  deriving DecidableEq, Repr

/-- A timestamp in its parts, which need not be in range. -/
structure Timestamp where
  /-- The year. -/
  year : Nat
  /-- The month. -/
  month : Nat
  /-- The day of the month. -/
  day : Nat
  /-- The time of day, if it is given. -/
  time : Option TimeOfDay
  deriving DecidableEq, Repr

namespace Timestamp

/-- Whether a character is a space or a tab. -/
def isBlank (c : Char) : Bool := c = ' ' || c = '\t'

/-- The number that the next digits write, between `least` and `most` of them, and what follows. -/
def number? (least most : Nat) (cs : List Char) : Option (Nat × List Char) :=
  let digits := (cs.takeWhile Char.isDigit).take most
  if digits.length < least then none
  else some (digits.foldl (fun n d => 10 * n + (d.toNat - 48)) 0, cs.drop digits.length)

/-- What follows a character that has to come. -/
def behind? (x : Char) : List Char → Option (List Char)
  | [] => none
  | c :: cs => if c = x then some cs else none

/-- The offset that the characters write, all of them. -/
def zone? : List Char → Option Zone
  | ['Z'] => some .universal
  | c :: cs =>
    if c = '+' ∨ c = '-' then do
      let (hours, cs) ← number? 1 2 cs
      if cs.isEmpty then return .shifted (c = '-') hours 0
      else
        let (minutes, cs) ← number? 2 2 (← behind? ':' cs)
        if cs.isEmpty then return .shifted (c = '-') hours minutes else none
    else none
  | [] => none

/-- The time of day that the characters write, all of them. -/
def time? (cs : List Char) : Option TimeOfDay := do
  let (hour, cs) ← number? 1 2 cs
  let (minute, cs) ← number? 2 2 (← behind? ':' cs)
  let (second, cs) ← number? 2 2 (← behind? ':' cs)
  let (fraction, cs) := match cs with
    | '.' :: cs => (cs.takeWhile Char.isDigit, cs.dropWhile Char.isDigit)
    | cs => ([], cs)
  if cs.isEmpty then return ⟨hour, minute, second, fraction, none⟩
  else return ⟨hour, minute, second, fraction, some (← zone? (cs.dropWhile isBlank))⟩

/-- The characters of the time behind the mark between date and time. -/
def behindMark? : List Char → Option (List Char)
  | [] => none
  | c :: cs =>
    if c = 'T' ∨ c = 't' then some cs else if isBlank c then some (cs.dropWhile isBlank) else none

/-- The timestamp that the characters write, all of them. -/
def ofChars? (cs : List Char) : Option Timestamp := do
  let (year, cs) ← number? 4 4 cs
  let (month, cs) ← number? 1 2 (← behind? '-' cs)
  let (day, cs) ← number? 1 2 (← behind? '-' cs)
  if cs.isEmpty then return ⟨year, month, day, none⟩
  else return ⟨year, month, day, some (← time? (← behindMark? cs))⟩

/-- Whether the characters have the form of a timestamp: a date has two digits for month and day. -/
def isForm (cs : List Char) : Bool :=
  match ofChars? cs with
  | none => false
  | some t => t.time.isSome || cs.length = 10

/-- The microseconds that the digits of a fraction write; digits beyond the sixth do not count. -/
def micros (fraction : List Char) : Nat :=
  let six := (fraction ++ List.replicate 6 '0').take 6
  six.foldl (fun n d => 10 * n + (d.toNat - 48)) 0

/-- The seconds of an offset, which must be less than a day. -/
def Zone.seconds : Zone → Except Fault Int
  | .universal => .ok 0
  | .shifted behind hours minutes =>
    let n : Int := 3600 * hours + 60 * minutes
    let seconds := if behind then -n else n
    if n < 86400 then .ok seconds else .error (.offsetRange (spanText seconds))

/-- The seconds of an offset if one is given. -/
def offset : Option Zone → Except Fault (Option Int)
  | none => .ok none
  | some z => (Zone.seconds z).map some

/-- The moment of a timestamp with a time of day. -/
def toMoment (t : Timestamp) (time : TimeOfDay) : Except Fault Moment := do
  let seconds ← offset time.zone
  let date ← Date.make t.year t.month t.day
  Moment.make date time.hour time.minute time.second (micros time.fraction) seconds

end Timestamp

end Verdict.Yaml
