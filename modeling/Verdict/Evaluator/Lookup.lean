import Verdict.Fault
import Verdict.Table
import Verdict.Text.Surrogate
/-!
# Looking settings up

Rules look settings up by their names. What answers them is given from outside and may fail: the
environment of a process, for example, has no way to ask for a name that it cannot write. A table
never fails.
-/

namespace Verdict

/-- Something that finds settings by name, or fails. -/
structure Lookup where
  /-- The setting with a name, if there is one. -/
  find? : String → Except Fault (Option String)

namespace Lookup

/-- Looking settings up in a table. -/
def ofTable (t : Table String) : Lookup := ⟨fun name => .ok (t.find? name)⟩

/-- The lookup without settings. -/
def empty : Lookup := ofTable .empty

@[simp] theorem find?_ofTable (t : Table String) (name : String) :
    (ofTable t).find? name = .ok (t.find? name) := rfl

end Lookup

/-- The environment of a process: the settings in it, and the names that cannot be asked for. -/
structure Environment where
  /-- The settings. -/
  table : Table String
  /-- How asking for a name fails, if it does. -/
  refuses : String → Option Fault

namespace Environment

/-- The environment that has the settings of a table and can be asked for every name. -/
def ofTable (t : Table String) : Environment := ⟨t, fun _ => none⟩

/-- The environment without settings. -/
def empty : Environment := ofTable .empty

/-- The environment that has the settings of a table and is asked in UTF-8. -/
def utf8 (t : Table String) : Environment :=
  ⟨t, fun name => (Text.unwritable? name).map (.outside "UnicodeEncodeError")⟩

/-- Looking settings up in an environment. -/
def lookup (environment : Environment) : Lookup where
  find? name :=
    match environment.refuses name with
    | some f => .error f
    | none => .ok (environment.table.find? name)

@[simp] theorem lookup_ofTable (t : Table String) : (ofTable t).lookup = .ofTable t := rfl

end Environment

end Verdict
