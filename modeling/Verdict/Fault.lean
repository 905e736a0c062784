import Verdict.Text.Quoted
/-!
# Faults

Most failures are part of an operation's answer: a clause that cannot be decided, a configuration
that is refused. A *fault* is a failure that no report collects: it ends the operation that meets
it. Faults come from number texts beyond the digit limit, from impossible dates in a document, from
files that cannot be read, from options without values, and from whatever is asked for something
outside: a file system, an environment, a reader of documents. `Failure` joins an operation's own
errors with the faults.
-/

namespace Verdict

/-- The most digits that a decimal number text may have, leading zeros counted. -/
def digitLimit : Nat := 4300

/-- A failure that ends an operation and stands in no report. -/
inductive Fault where
  /-- A decimal number text with too many digits is read as an integer. -/
  | longNumeral (digits : Nat)
  /-- An integer with too many digits is written. -/
  | longInteger
  /-- A text is no integer of the base. -/
  | notNumeral (base : Nat) (text : String)
  /-- A text is no decimal number. -/
  | notDecimal (text : String)
  /-- A power of sixty has no floating-point neighbour. -/
  | largeFactor
  /-- A number has no text at all. -/
  | emptyNumeral
  /-- A text is no truth value. -/
  | unknownTruth (text : String)
  /-- A text is no point in time. -/
  | notMoment
  /-- An escape names a code point above U+10FFFF. -/
  | codePointRange
  /-- An escape names a code point of more than 31 bits. -/
  | codePointSize
  /-- No calendar year has this number. -/
  | yearRange (year : Nat)
  /-- The month is not one of twelve. -/
  | monthRange
  /-- The month has no such day. -/
  | dayRange
  /-- The hour is not one of twenty-four. -/
  | hourRange
  /-- The minute is not one of sixty. -/
  | minuteRange
  /-- The second is not one of sixty. -/
  | secondRange
  /-- The offset from universal time is a day or more; the text shows it. -/
  | offsetRange (shown : String)
  /-- A directory stands where a file is read. -/
  | directory (path : String)
  /-- A file does not hold UTF-8 text. -/
  | undecodable
  /-- An option for a path has no value. -/
  | missingPath
  /-- An option for an assignment has no value. -/
  | missingAssignment
  /-- Something outside fails, with an error of a kind and in words of its own. -/
  | outside (kind words : String)
  deriving DecidableEq, Repr

/-- The words of a fault. -/
def Fault.message : Fault → String
  | .longNumeral digits =>
    "Exceeds the limit (4300 digits) for integer string conversion: value has " ++
      toString digits ++ " digits; use sys.set_int_max_str_digits() to increase the limit"
  | .longInteger =>
    "Exceeds the limit (4300 digits) for integer string conversion; " ++
      "use sys.set_int_max_str_digits() to increase the limit"
  | .notNumeral base text =>
    "invalid literal for int() with base " ++ toString base ++ ": " ++
      String.ofList ((Text.quoted text).toList.take 200)
  | .notDecimal text => "could not convert string to float: " ++ Text.quoted text
  | .largeFactor => "int too large to convert to float"
  | .emptyNumeral => "string index out of range"
  | .unknownTruth text => Text.quoted text
  | .notMoment => "'NoneType' object has no attribute 'groupdict'"
  | .codePointRange => "chr() arg not in range(0x110000)"
  | .codePointSize => "Python int too large to convert to C int"
  | .yearRange year => "year " ++ toString year ++ " is out of range"
  | .monthRange => "month must be in 1..12"
  | .dayRange => "day is out of range for month"
  | .hourRange => "hour must be in 0..23"
  | .minuteRange => "minute must be in 0..59"
  | .secondRange => "second must be in 0..59"
  | .offsetRange shown =>
    "offset must be a timedelta strictly between -timedelta(hours=24) and timedelta(hours=24), " ++
      "not " ++ shown ++ "."
  | .directory path => "[Errno 21] Is a directory: " ++ Text.quoted path
  | .undecodable => "undecodable"
  | .missingPath => "'list' object has no attribute 'resolve'"
  | .missingAssignment => "'list' object has no attribute 'partition'"
  | .outside _ words => words

/-- A failure of an operation whose own errors are `ε`: one of those, or a fault. -/
inductive Failure (ε : Type) where
  /-- An error that the operation declares. -/
  | declared (error : ε)
  /-- A fault that ends it. -/
  | fault (fault : Fault)
  deriving DecidableEq, Repr

namespace Failure

variable {ε δ α : Type}

/-- The words of a failure. -/
def message (describe : ε → String) : Failure ε → String
  | .declared e => describe e
  | .fault f => f.message

/-- The failure with its declared error changed by a function. -/
def map (f : ε → δ) : Failure ε → Failure δ
  | .declared e => .declared (f e)
  | .fault g => .fault g

@[simp] theorem map_declared (f : ε → δ) (e : ε) : (declared e).map f = declared (f e) := rfl

@[simp] theorem map_fault (f : ε → δ) (g : Fault) : (fault g : Failure ε).map f = fault g := rfl

end Failure

/-- An attempt that may meet a fault, as a step of an operation with errors `ε`. -/
def orFault {ε α : Type} : Except Fault α → Except (Failure ε) α
  | .ok a => .ok a
  | .error f => .error (.fault f)

/-- An attempt with declared errors alone, as a step of an operation that may meet faults. -/
def orDeclared {ε α : Type} : Except ε α → Except (Failure ε) α
  | .ok a => .ok a
  | .error e => .error (.declared e)

end Verdict
