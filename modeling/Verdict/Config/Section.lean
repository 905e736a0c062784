import Verdict.Calendar.IsoText
import Verdict.Config.Basic
import Verdict.Text.Blank
/-!
# Sections of a configuration

The parts of a configuration document and what they may hold: `today` a date, a moment or a date
text; `context` any values; `env` scalars, which become texts; `rules` texts that are not blank. The
last three are mappings with text keys. Every part may be missing or hold nothing.
-/

namespace Verdict

/-- The keys that a configuration may have. -/
def configKeys : List String := ["context", "env", "rules", "today"]

/-- The keys whose values are mappings. -/
def sectionKeys : List String := ["context", "env", "rules"]

/-- The date that a value is or writes; nothing is no date. -/
def readDate (key : String) (v : Value) : Except (Failure ConfigError) (Option Date) :=
  match v with
  | .null => .ok none
  | .moment m => .ok (some m.date)
  | .date d => .ok (some d)
  | .text s =>
    match Date.ofText? (Text.trim s) with
    | some d => .ok (some d)
    | none => .error (.declared (.notDate key (Text.quoted s)))
  | v =>
    match v.shown with
    | .ok shown => .error (.declared (.notDate key shown))
    | .error f => .error (.fault f)

namespace Value

/-- Whether a value may be a setting: it is something, and neither a list nor a mapping. -/
def isScalar : Value → Bool
  | .null | .list _ | .map _ | .enclosing _ _ => false
  | _ => true

/-- The text of a setting; truth values are written in lower case. -/
def settingText : Value → Except Fault String
  | .bool b => .ok (if b then "true" else "false")
  | v => v.toText

/-- Whether a value may be a rule: it is a text and not blank. -/
def isRule : Value → Bool
  | .text s => !Text.isBlankText s
  | _ => false

/-- The entries of a mapping by the texts that are their keys, if all keys are texts. -/
def textEntries? : List (Value × Value) → Option (List (String × Value))
  | [] => some []
  | (.text k, v) :: es => (textEntries? es).map fun rest => (k, v) :: rest
  | _ :: _ => none

end Value

/-- The entries of a section of a document. -/
def readSection (name : String) (v : Value) : Except ConfigError (List (String × Value)) :=
  match v with
  | .null => .ok []
  | .map es =>
    match Value.textEntries? es with
    | some entries => .ok entries
    | none => .error (.notSection name)
  | _ => .error (.notSection name)

/-- The texts of settings. -/
def settingTexts : List (String × Value) → Except Fault (List (String × String))
  | [] => .ok []
  | (k, v) :: es => do return (k, ← v.settingText) :: (← settingTexts es)

/-- The settings of a document; a section that holds nothing has none. -/
def readSettings (v : Value) : Except (Failure ConfigError) (Option (Table String)) := do
  match v with
  | .null => return none
  | v =>
    let es ← orDeclared (readSection "env" v)
    match es.find? fun e => !e.2.isScalar with
    | some e => .error (.declared (.notScalar e.1))
    | none => return some (.ofList (← orFault (settingTexts es)))

/-- The rules of a document. -/
def readRules (v : Value) : Except ConfigError (Table String) := do
  let es ← readSection "rules" v
  match es.find? fun e => !e.2.isRule with
  | some e => .error (.notRule e.1)
  | none => return .ofList (es.map fun e => (e.1, e.2.asText?.getD ""))

end Verdict
