import Verdict.Config.Location
import Verdict.Evaluator.Source
import Verdict.Text.Quoted
/-!
# Configurations

A configuration names a date, context data, environment settings and rules. All may be left out:
then the date is today's, the data are empty, the settings are those of the process, and there are
no rules. `ConfigError` is why a configuration, a rule name or an assignment is refused.
-/

namespace Verdict

/-- Why a configuration or what was asked of it is refused. -/
inductive ConfigError where
  /-- There is no file at the path that was given. -/
  | notFound (path : String)
  /-- The file is no document, for which its reader has the words. -/
  | notYaml (path words : String)
  /-- The document is no mapping. -/
  | notMapping (path : String)
  /-- The document has keys that no configuration has. -/
  | unknownKeys (keys : List String)
  /-- A date is asked for, and this is none. -/
  | notDate (key shown : String)
  /-- A section is no mapping with text keys. -/
  | notSection (name : String)
  /-- A setting is no scalar. -/
  | notScalar (key : String)
  /-- A rule is no text, or blank. -/
  | notRule (name : String)
  /-- No rule has the name; these have one. -/
  | unknownRule (name : String) (known : List String)
  /-- An assignment has no key or no equals sign. -/
  | notAssignment (flag item : String)
  deriving DecidableEq, Repr

/-- The words of a configuration error. -/
def ConfigError.message : ConfigError → String
  | .notFound path => "Config file not found: " ++ path
  | .notYaml path words => "Invalid YAML config file at " ++ path ++ ": " ++ words
  | .notMapping path => "Config file at " ++ path ++ " must be a YAML mapping"
  | .unknownKeys keys =>
    "Unknown config keys: [" ++ Value.commaSeparated (keys.map Text.quoted) ++ "]"
  | .notDate key shown => key ++ " must be an ISO date (YYYY-MM-DD), got " ++ shown
  | .notSection name => name ++ " must be a mapping with string keys"
  | .notScalar key => "env." ++ key ++ " must be a scalar value"
  | .notRule name => "rules." ++ name ++ " must be a non-empty expression string"
  | .unknownRule name known =>
    "Unknown rule '" ++ name ++ "' (configured rules: " ++
      (if known.isEmpty then "none" else Value.commaSeparated known) ++ ")"
  | .notAssignment flag item => flag ++ " expects KEY=VALUE, got " ++ Text.quoted item

/-- The texts in order, compared by code point. -/
def sortTexts (texts : List String) : List String :=
  texts.mergeSort fun s t => (compare s t).isLE

/-- A configuration. -/
structure Config where
  /-- The date on which rules are evaluated, if it is fixed. -/
  today : Option Date
  /-- The context data. -/
  context : Table Value
  /-- The environment settings, if they are not those of the process. -/
  env : Option (Table String)
  /-- The rules by name. -/
  rules : Table String

namespace Config

/-- The configuration that leaves everything out. -/
def default : Config := ⟨none, .empty, none, .empty⟩

/-- The rule with a name. -/
def rule (c : Config) (name : String) : Except ConfigError String :=
  match c.rules.find? name with
  | some rule => .ok rule
  | none => .error (.unknownRule name (sortTexts c.rules.keys))

/-- The clock of a configuration. -/
def clock (c : Config) : Clock := .ofDate? c.today

/-- The source of settings of a configuration. -/
def settings (c : Config) : Settings := .ofTable? c.env

/-- The evaluator over the context data and `extra` entries, which win, on the configuration's date
and with its settings, or else on the system's date and with the settings of the process. -/
def evaluator (c : Config) (extra : Table Value) (system : Date) (process : Environment) :
    Evaluator :=
  .make (c.context.update extra.entries) c.clock c.settings system process

end Config

end Verdict
