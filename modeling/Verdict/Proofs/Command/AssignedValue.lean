import Verdict.Proofs.Command.Faults
import Verdict.Proofs.Config.Assignment
import Verdict.Yaml.Document
/-!
# Values of assignments

The value of an assignment to context data is read as a document. A text that is refused as a
document stands for itself, and so does one whose document is no text, number or truth value. But a
reader can also fail in other ways, and then neither the value nor the row of assignments has an end
of its own: `2017-02-30` is not the text that it might be, since no calendar has the day.
-/

namespace Verdict

/-- The values that an assignment can make: texts, numbers and truth values. -/
inductive Value.IsBasic : Value → Prop
  | text (s : String) : IsBasic (.text s)
  | int (n : Int) : IsBasic (.int n)
  | float (x : Binary64) : IsBasic (.float x)
  | bool (b : Bool) : IsBasic (.bool b)

variable {reader : Reader} {raw flag : String} {items : List String}

/-- What a text stands for on the command line: the value of its document if that is basic, and
itself if its document is another value or the reader refuses it. -/
inductive StandsFor (reader : Reader) (raw : String) : Value → Prop
  | read {v : Value} (document : reader raw = .ok v) (basic : v.IsBasic) : StandsFor reader raw v
  | other {v : Value} (document : reader raw = .ok v) (structured : ¬ v.IsBasic) :
    StandsFor reader raw (.text raw)
  | refused {words : String} (document : reader raw = .error (.declared words)) :
    StandsFor reader raw (.text raw)

/-- Every document that is read stands for a value. -/
theorem exists_contextValue_of_read {v : Value} (document : reader raw = .ok v) :
    ∃ w, contextValue reader raw = .ok w ∧ StandsFor reader raw w := by
  unfold contextValue
  rw [document]
  cases v
  case text s => exact ⟨_, rfl, .read document (.text s)⟩
  case int n => exact ⟨_, rfl, .read document (.int n)⟩
  case float x => exact ⟨_, rfl, .read document (.float x)⟩
  case bool b => exact ⟨_, rfl, .read document (.bool b)⟩
  all_goals exact ⟨_, rfl, .other document nofun⟩

/-- A text stands for one value at most. -/
theorem StandsFor.unique {v w : Value} (hv : StandsFor reader raw v) (hw : StandsFor reader raw w) :
    v = w := by
  cases hv with
  | read hv basic =>
    cases hw with
    | read hw _ => exact Except.ok.inj (hv.symm.trans hw)
    | other hw structured => exact absurd (Except.ok.inj (hv.symm.trans hw) ▸ basic) structured
    | refused hw => cases hv.symm.trans hw
  | other hv structured =>
    cases hw with
    | read hw basic => exact absurd (Except.ok.inj (hw.symm.trans hv) ▸ basic) structured
    | other _ _ => rfl
    | refused _ => rfl
  | refused hv =>
    cases hw with
    | read hw _ => cases hv.symm.trans hw
    | other _ _ => rfl
    | refused _ => rfl

/-- The value of a text on the command line is what the text stands for. -/
theorem contextValue_eq_ok_iff {v : Value} :
    contextValue reader raw = .ok v ↔ StandsFor reader raw v := by
  cases hreading : reader raw with
  | ok w =>
    obtain ⟨u, hu, stands⟩ := exists_contextValue_of_read hreading
    rw [hu, Except.ok.injEq]
    exact ⟨fun h => h ▸ stands, fun h => stands.unique h⟩
  | error e =>
    cases e with
    | declared words =>
      have hvalue : contextValue reader raw = .ok (.text raw) := by rw [contextValue, hreading]
      rw [hvalue, Except.ok.injEq]
      exact ⟨fun h => h ▸ .refused hreading, fun h => (StandsFor.refused hreading).unique h⟩
    | fault f =>
      rw [Command.contextValue_eq_error_iff.2 hreading]
      refine ⟨nofun, fun h => ?_⟩
      cases h with
      | read document _ => cases hreading.symm.trans document
      | other document _ => cases hreading.symm.trans document
      | refused document => cases hreading.symm.trans document

namespace Command

/-- A text has a value exactly if the reader reads it or refuses it. -/
theorem exists_contextValue_iff :
    (∃ v, contextValue reader raw = .ok v) ↔ ∀ f, reader raw ≠ .error (.fault f) := by
  simp only [Ne, ← contextValue_eq_error_iff]
  cases contextValue reader raw <;> simp

/-- Whether a text is an assignment of a value that is read or refused. -/
def AssignsValue (reader : Reader) (item : String) : Prop :=
  ∃ front back, Keyed item front back ∧ ∀ f, reader back ≠ .error (.fault f)

/-- One assignment makes a pair exactly if it is an assignment of such a value. -/
theorem exists_assigned_contextValue_iff {item : String} :
    (∃ pair, assigned flag (contextValue reader) item = .ok pair) ↔ AssignsValue reader item := by
  simp only [AssignsValue, ← exists_contextValue_iff, assigned_eq_ok_iff]
  constructor
  · rintro ⟨⟨key, v⟩, front, back, h, -, hv⟩
    exact ⟨front, back, h, v, hv⟩
  · rintro ⟨front, back, h, v, hv⟩
    exact ⟨(Text.trim front, v), front, back, h, rfl, hv⟩

/-- **How assignments to context data end.** Whichever reader documents are read by, a text on the
command line has a value unless the reader fails on it in a way that is no refusal, and the value is
the text itself or a text, a number or a truth value that its document is. A row of assignments
makes a table exactly if each of them is an assignment with a value. Otherwise the first one that is
not decides: if it has no key it is named in an error, and if it has one the row ends in the fault
that reading its value met. -/
theorem assigned_values_end (reader : Reader) (flag : String) (items : List String) :
    (∀ raw, (∀ f, contextValue reader raw = .error f ↔ reader raw = .error (.fault f)) ∧
      ((∃ v, contextValue reader raw = .ok v) ↔ ∀ f, reader raw ≠ .error (.fault f)) ∧
      ∀ v, contextValue reader raw = .ok v ↔ StandsFor reader raw v) ∧
    ((∃ t, contextAssignments reader flag items = .ok t) ↔
      ∀ item ∈ items, AssignsValue reader item) ∧
    (∀ e, contextAssignments reader flag items = .error (.declared e) ↔
      ∃ before item after, items = before ++ item :: after ∧
        (∀ earlier ∈ before, AssignsValue reader earlier) ∧ Keyless item ∧
        e = .notAssignment flag item) ∧
    ∀ f, contextAssignments reader flag items = .error (.fault f) ↔
      ∃ before item after, items = before ++ item :: after ∧
        (∀ earlier ∈ before, AssignsValue reader earlier) ∧
        ∃ front back, Keyed item front back ∧ reader back = .error (.fault f) := by
  -- the row fails with the first item that fails, whichever way that does
  have herror (e : Failure ConfigError) : contextAssignments reader flag items = .error e ↔
      ∃ before item after, items = before ++ item :: after ∧
        (∀ earlier ∈ before, AssignsValue reader earlier) ∧
        assigned flag (contextValue reader) item = .error e := by
    rw [contextAssignments, addAssignments_eq, map_eq_error_iff, mapM_eq_error_iff]
    simp only [exists_assigned_contextValue_iff]
  refine ⟨fun raw => ⟨fun f => contextValue_eq_error_iff, exists_contextValue_iff,
    fun v => contextValue_eq_ok_iff⟩, ?_, fun e => ?_, fun f => ?_⟩
  · have hok : (∃ t, contextAssignments reader flag items = .ok t) ↔
        ∃ pairs, items.mapM (assigned flag (contextValue reader)) = .ok pairs := by
      rw [contextAssignments, addAssignments_eq]
      cases items.mapM (assigned flag (contextValue reader)) <;> simp [Except.map]
    rw [hok, mapM_isOk_iff]
    simp only [exists_assigned_contextValue_iff]
  · rw [herror]
    simp only [assigned_eq_error_iff, Failure.declared.injEq, reduceCtorEq, and_false, exists_false,
      or_false]
  · rw [herror]
    simp only [assigned_eq_error_iff, reduceCtorEq, and_false, false_or, Failure.fault.injEq,
      contextValue_eq_error_iff, exists_eq_right_right']

/-- A day that no calendar has ends the reading of a value, and of the row that it stands in. -/
theorem assigned_values_impossible_date :
    contextValue Yaml.reader "2017-02-30" = .error .dayRange ∧
      contextAssignments Yaml.reader "--set" ["plan=pro", "since=2017-02-30"] =
        .error (.fault .dayRange) := by
  decide +kernel

end Command

end Verdict
