import Verdict.Config.Basic
import Verdict.Text.Blank
import Verdict.Value.Reading
/-!
# Assignments

An assignment is a key, an equals sign and a value. Blanks around the key do not count and the key
may not be blank; everything behind the first equals sign is the value as it stands. Context values
are read as documents where they are texts, numbers or truth values, and are taken as they stand
otherwise. Of several assignments to a key the last one counts.
-/

namespace Verdict

/-- The key and the value of an assignment. -/
def assignment? (item : String) : Option (String × String) :=
  match item.toList.dropWhile (· ≠ '=') with
  | [] => none
  | _ :: value =>
    let key := Text.trimChars (item.toList.takeWhile (· ≠ '='))
    if key.isEmpty then none else some (String.ofList key, String.ofList value)

/-- The value of a text on the command line. -/
def contextValue (reader : Reader) (raw : String) : Except Fault Value :=
  match reader raw with
  | .error (.fault f) => .error f
  | .error (.declared _) => .ok (.text raw)
  | .ok v =>
    match v with
    | .text _ | .int _ | .float _ | .bool _ => .ok v
    | _ => .ok (.text raw)

/-- A table with assignments added to it, each value read by `read`. -/
def addAssignments {α : Type} (flag : String) (read : String → Except Fault α) :
    List String → Table α → Except (Failure ConfigError) (Table α)
  | [], t => .ok t
  | item :: items, t =>
    match assignment? item with
    | none => .error (.declared (.notAssignment flag item))
    | some (key, raw) =>
      match read raw with
      | .error f => .error (.fault f)
      | .ok v => addAssignments flag read items (t.insert key v)

/-- The context data that assignments make. -/
def contextAssignments (reader : Reader) (flag : String) (items : List String) :
    Except (Failure ConfigError) (Table Value) :=
  addAssignments flag (contextValue reader) items .empty

/-- The settings that assignments make. -/
def settingAssignments (flag : String) (items : List String) :
    Except (Failure ConfigError) (Table String) :=
  addAssignments flag .ok items .empty

end Verdict
