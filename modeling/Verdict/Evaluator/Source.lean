import Verdict.Evaluator.Basic
/-!
# Where an evaluator's date and settings come from

The date is the system's or a fixed one, and the settings are those of the process or given by a
mapping, whose keys and values may be any values and count by what they say. Both are read when an
evaluator is made and never again.
-/

namespace Verdict

/-- Where today's date comes from. -/
inductive Clock where
  /-- The system knows it. -/
  | system
  /-- It is fixed. -/
  | fixed (date : Date)
  deriving DecidableEq

namespace Clock

/-- The clock that a date fixes, or the system's. -/
def ofDate? : Option Date → Clock
  | none => .system
  | some d => .fixed d

/-- The date that a clock reports when the system's date is the given one. -/
def today (system : Date) : Clock → Date
  | .system => system
  | .fixed d => d

/-- What a clock is called. -/
def name : Clock → String
  | .system => "SystemClock"
  | .fixed _ => "FixedClock"

/-- How a clock is shown. -/
def shown : Clock → String
  | .system => "SystemClock"
  | .fixed d => "FixedClock(" ++ d.text ++ ")"

end Clock

/-- Where environment settings come from. -/
inductive Settings where
  /-- The environment of the process. -/
  | process
  /-- A mapping. -/
  | given (table : Table String)

namespace Settings

/-- The settings of a mapping, or those of the process. -/
def ofTable? : Option (Table String) → Settings
  | none => .process
  | some t => .given t

/-- The lookup of settings in a process with the given environment. -/
def lookup (process : Environment) : Settings → Lookup
  | .process => process.lookup
  | .given t => .ofTable t

/-- What a source of settings is called. -/
def name : Settings → String
  | .process => "ProcessEnvLookup"
  | .given _ => "MappingEnvLookup"

/-- The entries of a mapping by what its keys and values say. -/
def said : List (Value × Value) → Except Fault (List (String × String))
  | [] => .ok []
  | (k, v) :: es => do
    let key ← k.toText
    return (key, ← v.toText) :: (← said es)

/-- The settings that a mapping of any values makes. -/
def ofEntries (es : List (Value × Value)) : Except Fault Settings :=
  (said es).map fun es => .given (.ofList es)

end Settings

/-- The evaluator over data, with the date that its clock reports now and the settings that its
source has now. -/
def Evaluator.make (data : Table Value) (clock : Clock) (settings : Settings) (system : Date)
    (process : Environment) : Evaluator :=
  ⟨data, clock.today system, settings.lookup process⟩

end Verdict
