import Verdict.Proofs.Config.Faults
/-!
# Faults of loading

Loading a configuration meets the faults of a diagnosis and one more. It stops at the first defect,
so that the date is shown only if all keys are known, and it writes the values of the settings,
which a diagnosis only looks at. `loadConfig_eq_fault_iff` says when it ends in a fault.
-/

namespace Verdict

variable {entries : List (Value × Value)} {texts : List String} {f : Fault}

/-! ## Settings -/

theorem settingText_failsOnly (v : Value) : FailsOnly .longInteger v.HoldsLong v.settingText := by
  unfold Value.settingText
  split
  · exact .ok (Value.not_holdsLong_of_parts_eq_nil (by simp) rfl) _
  · exact v.toText_failsOnly

theorem settingTexts_failsOnly (es : List (String × Value)) :
    FailsOnly .longInteger (∃ e ∈ es, e.2.HoldsLong) (settingTexts es) := by
  induction es with
  | nil => exact .ok (by simp) _
  | cons e es ih =>
    obtain ⟨k, v⟩ := e
    rw [settingTexts]
    refine ((settingText_failsOnly v).bind fun text => ih.bind_ok fun texts => ⟨_, rfl⟩).congr ?_
    simp

/-- The settings are a fault exactly when all are scalars and one of them cannot be written. -/
theorem readSettings_eq_fault_iff {v : Value} :
    readSettings v = .error (.fault f) ↔ f = .longInteger ∧ ∃ es, readSection "env" v = .ok es ∧
      (∀ e ∈ es, e.2.isScalar = true) ∧ ∃ e ∈ es, e.2.HoldsLong := by
  constructor
  · intro h
    unfold readSettings at h
    split at h
    · cases h
    · rcases bind_eq_error_iff.1 h with h | ⟨es, hes, h⟩
      · exact absurd h orDeclared_ne_fault
      · split at h
        · cases h
        · next hnone =>
          -- a value that is no scalar is refused before any is written
          have hscalars : ∀ e ∈ es, e.2.isScalar = true := by simpa using hnone
          rcases bind_eq_error_iff.1 h with h | ⟨texts, -, h⟩
          · obtain ⟨rfl, long⟩ := (settingTexts_failsOnly es f).1 (orFault_eq_fault_iff.1 h)
            exact ⟨rfl, es, orDeclared_eq_ok_iff.1 hes, hscalars, long⟩
          · cases h
  · rintro ⟨rfl, es, hes, scalars, long⟩
    have hnone : es.find? (fun e => !e.2.isScalar) = none := by simpa using scalars
    have htexts : settingTexts es = .error .longInteger :=
      (settingTexts_failsOnly es _).2 ⟨rfl, long⟩
    unfold readSettings
    split
    · -- a section that holds nothing has no entries
      cases hes
      obtain ⟨e, he, -⟩ := long
      exact absurd he List.not_mem_nil
    · rw [hes, orDeclared]
      simp only [bind, Except.bind, hnone, htexts, orFault]

/-! ## Entries -/

/-- Whether loading entries comes to an integer beyond the limit that it has to write. -/
inductive Unloadable (entries : List (Value × Value)) : Prop
  /-- Every key is written. -/
  | key (long : HasLongKey entries)
  /-- What stands for the date is written if all keys are known. -/
  | date {texts : List String} (keys : keyTexts entries = .ok texts)
    (known : unknownKeys texts = []) (long : (sectionTaken entries "today").HoldsLong)
  /-- The settings are written if all that is read before them is in order, and all are scalars. -/
  | setting {texts : List String} {today : Option Date} {data es : List (String × Value)}
    (keys : keyTexts entries = .ok texts) (known : unknownKeys texts = [])
    (date : readDate "today" (sectionTaken entries "today") = .ok today)
    (context : readSection "context" (sectionTaken entries "context") = .ok data)
    (settings : readSection "env" (sectionValue entries "env") = .ok es)
    (scalars : ∀ e ∈ es, e.2.isScalar = true) (long : ∃ e ∈ es, e.2.HoldsLong)

/-- Loading entries fails in one way, at an integer that has to be written and cannot be. -/
theorem ofEntries_eq_fault_iff :
    Config.ofEntries entries = .error (.fault f) ↔ f = .longInteger ∧ Unloadable entries := by
  cases hkeys : keyTexts entries with
  | error g =>
    -- the keys come first, and writing them fails in one way
    obtain ⟨rfl, long⟩ := (keyTexts_failsOnly entries g).1 hkeys
    have hfault : Config.ofEntries entries = .error (.fault .longInteger) := by
      unfold Config.ofEntries
      rw [hkeys]
      rfl
    rw [hfault]
    simp only [Except.error.injEq, Failure.fault.injEq, eq_comm (a := Fault.longInteger)]
    exact (and_iff_left (.key long)).symm
  | ok texts =>
    have hshort : ¬ HasLongKey entries := by
      rw [← (keyTexts_failsOnly entries).isOk_iff]
      exact ⟨texts, hkeys⟩
    by_cases known : unknownKeys texts = []
    · -- the date, the context data, the settings and the rules are read in this order
      rw [ofEntries_of_known hkeys known]
      constructor
      · intro h
        rcases bind_eq_error_iff.1 h with h | ⟨today, date, h⟩
        · obtain ⟨rfl, long⟩ := readDate_eq_fault_iff.1 h
          exact ⟨rfl, .date hkeys known long⟩
        rcases bind_eq_error_iff.1 h with h | ⟨data, context, h⟩
        · exact absurd h orDeclared_ne_fault
        rcases bind_eq_error_iff.1 h with h | ⟨settings, -, h⟩
        · obtain ⟨rfl, es, hes, scalars, long⟩ := readSettings_eq_fault_iff.1 h
          exact ⟨rfl, .setting hkeys known date (orDeclared_eq_ok_iff.1 context) hes scalars long⟩
        rcases bind_eq_error_iff.1 h with h | ⟨rules, -, h⟩
        · exact absurd h orDeclared_ne_fault
        · cases h
      · rintro ⟨rfl, long | ⟨-, -, long⟩ | ⟨-, -, date, context, settings, scalars, long⟩⟩
        · exact absurd long hshort
        · exact bind_eq_error_iff.2 (.inl (readDate_eq_fault_iff.2 ⟨rfl, long⟩))
        · refine bind_eq_error_iff.2 (.inr ⟨_, date, ?_⟩)
          refine bind_eq_error_iff.2 (.inr ⟨_, orDeclared_eq_ok_iff.2 context, ?_⟩)
          refine bind_eq_error_iff.2 (.inl (readSettings_eq_fault_iff.2 ?_))
          exact ⟨rfl, _, settings, scalars, long⟩
    · -- an unknown key is refused before anything else is looked at
      rw [ofEntries_of_unknown hkeys known]
      refine ⟨nofun, ?_⟩
      rintro ⟨-, long | ⟨keys, known', -⟩ | ⟨keys, known', -, -, -, -, -⟩⟩
      · exact absurd long hshort
      · cases hkeys.symm.trans keys
        exact absurd known' known
      · cases hkeys.symm.trans keys
        exact absurd known' known

/-! ## Files -/

/-- The faults in which loading what stands at a path ends. -/
inductive Entry.Unloadable (path : String) : Entry → Fault → Prop
  /-- A directory cannot be read. -/
  | directory : Unloadable path .directory (.directory path)
  /-- It fails as soon as it is looked at. -/
  | failing {f : Fault} : Unloadable path (.failing f) f
  /-- Reading the document of the file ends in the fault. -/
  | document {f : Fault} : Unloadable path (.file (.error (.fault f))) f
  /-- An integer beyond the limit has to be written. -/
  | unwritable {entries : List (Value × Value)} (long : Verdict.Unloadable entries) :
    Unloadable path (.file (.ok (.map entries))) .longInteger

theorem not_unloadable_nil : ¬ Unloadable [] := by
  rintro (long | ⟨-, -, long⟩ | ⟨-, -, -, -, settings, -, long⟩)
  · exact not_hasLongKey_nil long
  · exact Value.not_holdsLong_of_parts_eq_nil (v := .null) (by simp) rfl long
  · cases settings
    obtain ⟨e, he, -⟩ := long
    exact List.not_mem_nil he

/-- Loading a document fails as that of a file that holds it. -/
theorem ofDocument_eq_fault_iff {path : String} {document : Reading} :
    Config.ofDocument path document = .error (.fault f) ↔
      (Entry.file document).Unloadable path f := by
  constructor
  · intro h
    unfold Config.ofDocument at h
    split at h
    · cases h
    · cases h
      exact .document
    · exact absurd (ofEntries_eq_fault_iff.1 h).2 not_unloadable_nil
    · obtain ⟨rfl, long⟩ := ofEntries_eq_fault_iff.1 h
      exact .unwritable long
    · cases h
  · intro h
    cases h with
    | document => rfl
    | unwritable long => exact ofEntries_eq_fault_iff.2 ⟨rfl, long⟩

/-- Loading ends in the faults of what stands where the file should be. -/
theorem loadConfig_eq_fault_iff {storage : Storage} {root : Location} {named : Option Location} :
    (loadConfig storage root named).result = .error (.fault f) ↔
      (storage (configLocation root named)).Unloadable (configLocation root named).text f := by
  -- by what the storage holds; only a file leads to a document
  cases hentry : storage (configLocation root named) with
  | missing =>
    unfold loadConfig
    simp only [hentry]
    constructor
    · intro h
      split at h <;> cases h
    · nofun
  | directory =>
    unfold loadConfig
    simp only [hentry]
    constructor
    · intro h
      cases h
      exact .directory
    · intro h
      cases h
      rfl
  | failing g =>
    unfold loadConfig
    simp only [hentry]
    constructor
    · intro h
      cases h
      exact .failing
    · intro h
      cases h
      rfl
  | file document => rw [result_loadConfig_of_file hentry, ofDocument_eq_fault_iff]

end Verdict
