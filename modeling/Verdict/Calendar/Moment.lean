import Verdict.Calendar.Date
/-!
# Moments

A moment is a date with a time of day down to the microsecond and, where it is known, the offset of
its clock from universal time in seconds, less than a day either way. Two moments with offsets are
the same when they name the same instant; one with an offset is never the same as one without.
-/

namespace Verdict

/-- A point in time on some clock. -/
structure Moment where
  /-- The day. -/
  date : Date
  /-- The hour of the day. -/
  hour : Nat
  /-- The minute of the hour. -/
  minute : Nat
  /-- The second of the minute. -/
  second : Nat
  /-- The microsecond of the second. -/
  micro : Nat
  /-- The seconds by which the clock is ahead of universal time, if that is known. -/
  offset : Option Int
  deriving DecidableEq

/-- A span of time as a sum of days and of seconds that are not negative: `-5` hours are a day back
and `68400` seconds on. -/
def spanText (seconds : Int) : String :=
  let days := seconds / 86400
  let rest := seconds % 86400
  let parts := (if days ≠ 0 then ["days=" ++ toString days] else []) ++
    (if rest ≠ 0 then ["seconds=" ++ toString rest] else [])
  "datetime.timedelta(" ++ (if parts.isEmpty then "0" else ", ".intercalate parts) ++ ")"

namespace Moment

/-- The moment with these parts, or the fault of the first part that is out of range. -/
def make (date : Date) (hour minute second micro : Nat) (offset : Option Int) :
    Except Fault Moment :=
  if 24 ≤ hour then .error .hourRange
  else if 60 ≤ minute then .error .minuteRange
  else if 60 ≤ second then .error .secondRange
  else .ok ⟨date, hour, minute, second, micro, offset⟩

/-- The microseconds from the start of the calendar to the moment on its own clock. -/
def elapsed (m : Moment) : Int :=
  (((m.date.ordinal * 24 + m.hour) * 60 + m.minute) * 60 + m.second) * 1000000 + m.micro

/-- Whether two moments are the same. -/
def same (m n : Moment) : Bool :=
  match m.offset, n.offset with
  | none, none => m.elapsed = n.elapsed
  | some a, some b => m.elapsed - a * 1000000 = n.elapsed - b * 1000000
  | _, _ => false

/-- Two decimal digits. -/
def twoDigits (n : Nat) : String := String.ofList (Date.paddedDigits 2 n)

/-- The text of an offset: sign, hours and minutes, and seconds where there are any. -/
def offsetText (seconds : Int) : String :=
  let n := seconds.natAbs
  (if seconds < 0 then "-" else "+") ++ twoDigits (n / 3600) ++ ":" ++ twoDigits (n / 60 % 60) ++
    (if n % 60 = 0 then "" else ":" ++ twoDigits (n % 60))

/-- The time of day. -/
def timeText (m : Moment) : String :=
  twoDigits m.hour ++ ":" ++ twoDigits m.minute ++ ":" ++ twoDigits m.second ++
    (if m.micro = 0 then "" else "." ++ String.ofList (Date.paddedDigits 6 m.micro))

/-- The text of a moment with `mark` between its date and its time. -/
def textWith (mark : String) (m : Moment) : String :=
  m.date.text ++ mark ++ m.timeText ++ (m.offset.map offsetText).getD ""

/-- How a moment is shown inside a collection: its parts without needless zeros, then its offset. -/
def shown (m : Moment) : String :=
  let time := [toString m.hour, toString m.minute] ++
    (if m.second = 0 ∧ m.micro = 0 then []
     else if m.micro = 0 then [toString m.second]
     else [toString m.second, toString m.micro])
  let zone := match m.offset with
    | none => []
    | some o =>
      [if o = 0 then "tzinfo=datetime.timezone.utc"
       else "tzinfo=datetime.timezone(" ++ spanText o ++ ")"]
  "datetime.datetime(" ++ ", ".intercalate
    ([toString m.date.year, toString m.date.month, toString m.date.day] ++ time ++ zone) ++ ")"

end Moment

end Verdict
