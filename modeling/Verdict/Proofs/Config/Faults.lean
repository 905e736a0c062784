import Verdict.Config.Disk
import Verdict.Proofs.Evaluator.LongValue
import Verdict.Proofs.Config.Agreement
import Verdict.Yaml.Document
/-!
# Faults of a diagnosis

A diagnosis reports what is wrong with a configuration file. Some things it does not report but ends
in: a path that leads nowhere, a file that cannot be looked at or opened, a directory where the file
should be, bytes that are no text, a reader that neither reads a text nor refuses it, and an integer
beyond the digit limit that has to be written into a report. `diagnose_ends` says that there are no
others, for every disk and every reader, and `diagnose_impossible_date` that a date that no calendar
has is enough.
-/

namespace Verdict

/-! ## What has to be written -/

/-- Whether an integer beyond the limit stands in a key. -/
def HasLongKey (entries : List (Value × Value)) : Prop := ∃ e ∈ entries, e.1.HoldsLong

theorem not_hasLongKey_nil : ¬ HasLongKey [] := fun ⟨_, he, _⟩ => List.not_mem_nil he

theorem hasLongKey_cons {k v : Value} {es : List (Value × Value)} :
    HasLongKey ((k, v) :: es) ↔ k.HoldsLong ∨ HasLongKey es := by
  simp [HasLongKey]

/-- Whether the diagnosis of entries has to write an integer beyond the limit. -/
inductive Unwritable (entries : List (Value × Value)) : Prop
  /-- Every key is written. -/
  | key (long : HasLongKey entries)
  /-- The keys of sections that are no texts are written. -/
  | sectionKey {name : String} (mem : name ∈ sectionKeys)
    (long : HasLongKey (sectionEntries entries name))
  /-- What stands for the date and is none is written. -/
  | date (long : (sectionTaken entries "today").HoldsLong)

theorem keyTexts_failsOnly (entries : List (Value × Value)) :
    FailsOnly .longInteger (HasLongKey entries) (keyTexts entries) := by
  induction entries with
  | nil => exact .ok not_hasLongKey_nil _
  | cons e es ih =>
    obtain ⟨k, v⟩ := e
    rw [keyTexts]
    refine (k.toText_failsOnly.bind fun shown => ih.bind_ok fun texts => ⟨_, rfl⟩).congr ?_
    exact hasLongKey_cons.symm

/-- The keys of a section are reported unless one of them is beyond the limit. -/
theorem keyFindings_failsOnly (name : String) (es : List (Value × Value)) :
    FailsOnly .longInteger (HasLongKey es) (keyFindings name es) := by
  induction es with
  | nil => exact .ok not_hasLongKey_nil _
  | cons e es ih =>
    obtain ⟨k, v⟩ := e
    refine FailsOnly.congr ?_ hasLongKey_cons.symm
    cases k with
    | text k =>
      -- a text is not written, but could be
      have hk : ¬ (Value.text k).HoldsLong := Value.not_holdsLong_of_parts_eq_nil (by simp) rfl
      exact ih.congr (or_iff_right hk).symm
    | _ => exact (Value.toText_failsOnly _).bind fun shown => ih.bind_ok fun fs => ⟨_, rfl⟩

theorem sectionFindings_failsOnly (entries : List (Value × Value)) (name : String) :
    FailsOnly .longInteger (HasLongKey (sectionEntries entries name))
      (sectionFindings entries name) := by
  unfold sectionFindings sectionEntries
  cases sectionValue entries name with
  | map es => exact keyFindings_failsOnly name es
  | _ => exact .ok not_hasLongKey_nil _

/-- Reading a date fails in a fault exactly when what stands for it has to be shown and cannot be.
-/
theorem readDate_eq_fault_iff {key : String} {v : Value} {f : Fault} :
    readDate key v = .error (.fault f) ↔ f = .longInteger ∧ v.HoldsLong := by
  rw [← v.shown_failsOnly f]
  unfold readDate
  split
  · simp [Value.shown]
  · simp [Value.shown]
  · simp [Value.shown]
  · split <;> simp [Value.shown]
  · cases v.shown <;> simp

theorem dateFindings_failsOnly (entries : List (Value × Value)) :
    FailsOnly .longInteger (sectionTaken entries "today").HoldsLong (dateFindings entries) := by
  intro f
  -- an error that reading the date declares is a finding
  have hread : readDate "today" (sectionTaken entries "today") = .error (.fault f) ↔ _ :=
    readDate_eq_fault_iff
  rw [← hread]
  unfold dateFindings
  split <;> simp [*]

/-- The entries of a document are reported unless something in them cannot be written. -/
theorem entryFindings_failsOnly (entries : List (Value × Value)) :
    FailsOnly .longInteger (Unwritable entries) (entryFindings entries) := by
  -- what is written, in its order: the keys, the keys of each section, and the date
  refine FailsOnly.congr ((keyTexts_failsOnly entries).bind fun texts =>
    (sectionFindings_failsOnly entries "context").bind fun context =>
      (sectionFindings_failsOnly entries "env").bind fun env =>
        (sectionFindings_failsOnly entries "rules").bind fun rules =>
          (dateFindings_failsOnly entries).bind_ok fun today => ⟨_, rfl⟩) ?_
  have hsections (name : String) :
      name ∈ sectionKeys ↔ name = "context" ∨ name = "env" ∨ name = "rules" := by
    simp [sectionKeys]
  constructor
  · rintro (long | long | long | long | long)
    · exact .key long
    · exact .sectionKey ((hsections _).2 (.inl rfl)) long
    · exact .sectionKey ((hsections _).2 (.inr (.inl rfl))) long
    · exact .sectionKey ((hsections _).2 (.inr (.inr rfl))) long
    · exact .date long
  · rintro (long | ⟨mem, long⟩ | long)
    · exact .inl long
    · rcases (hsections _).1 mem with rfl | rfl | rfl
      · exact .inr (.inl long)
      · exact .inr (.inr (.inl long))
      · exact .inr (.inr (.inr (.inl long)))
    · exact .inr (.inr (.inr (.inr long)))

/-! ## Files -/

/-- The faults in which the diagnosis of what stands at a path ends. -/
inductive Entry.Undiagnosable (path : String) : Entry → Fault → Prop
  /-- A directory cannot be read. -/
  | directory : Undiagnosable path .directory (.directory path)
  /-- It fails as soon as it is looked at. -/
  | failing {f : Fault} : Undiagnosable path (.failing f) f
  /-- Reading the document of the file ends in the fault. -/
  | document {f : Fault} : Undiagnosable path (.file (.error (.fault f))) f
  /-- An integer beyond the limit has to be written. -/
  | unwritable {entries : List (Value × Value)} (long : Unwritable entries) :
    Undiagnosable path (.file (.ok (.map entries))) .longInteger

/-- What is found in a document fails as the diagnosis of a file that holds it. -/
theorem documentFindings_eq_error_iff {path : String} {document : Reading} {f : Fault} :
    documentFindings document = .error f ↔ (Entry.file document).Undiagnosable path f := by
  constructor
  · intro h
    unfold documentFindings at h
    split at h
    · cases h
    · cases h
      exact .document
    · cases h
    · next entries =>
      obtain ⟨rfl, long⟩ := (entryFindings_failsOnly entries f).1 h
      exact .unwritable long
    · cases h
  · intro h
    cases h with
    | document => rfl
    | unwritable long => exact (entryFindings_failsOnly _ _).2 ⟨rfl, long⟩

/-- A diagnosis ends in the faults of what stands where the file should be. -/
theorem diagnose_eq_error_iff {storage : Storage} {root : Location} {named : Option Location}
    {expected : Bool} {f : Fault} :
    diagnose storage root named expected = .error f ↔
      (storage (configLocation root named)).Undiagnosable (configLocation root named).text f := by
  unfold diagnose
  dsimp only
  cases storage (configLocation root named) with
  | missing => exact ⟨nofun, nofun⟩
  | directory =>
    constructor
    · intro h
      cases h
      exact .directory
    · intro h
      cases h
      rfl
  | failing g =>
    constructor
    · intro h
      cases h
      exact .failing
    · intro h
      cases h
      rfl
  | file document => rw [map_eq_error_iff, documentFindings_eq_error_iff]

/-! ## Disks -/

/-- The faults in which the diagnosis of what a disk holds at a path ends, the files being read by a
reader. -/
inductive Content.Undiagnosable (reader : Reader) (path : String) : Content → Fault → Prop
  /-- A directory cannot be read. -/
  | directory : Undiagnosable reader path .directory (.directory path)
  /-- The location cannot be looked at. -/
  | failing {f : Fault} : Undiagnosable reader path (.failing f) f
  /-- The file cannot be opened. -/
  | unopenable {f : Fault} : Undiagnosable reader path (.unopenable f) f
  /-- The bytes are no text. -/
  | undecodable {bytes : ByteArray} (untextual : textOfBytes? bytes = none) :
    Undiagnosable reader path (.file bytes) .undecodable
  /-- The reader fails on the text. -/
  | unreadable {bytes : ByteArray} {text : String} {f : Fault}
    (textual : textOfBytes? bytes = some text) (fails : reader text = .error (.fault f)) :
    Undiagnosable reader path (.file bytes) f
  /-- An integer beyond the limit has to be written. -/
  | unwritable {bytes : ByteArray} {text : String} {entries : List (Value × Value)}
    (textual : textOfBytes? bytes = some text) (read : reader text = .ok (.map entries))
    (long : Unwritable entries) : Undiagnosable reader path (.file bytes) .longInteger

/-- The faults in which a diagnosis at paths on a disk ends. -/
inductive Disk.Undiagnosable (disk : Disk) (reader : Reader) (root : String)
    (named : Option String) : Fault → Prop
  /-- The path of the root directory leads nowhere. -/
  | root {f : Fault} (fails : disk.resolve root = .error f) : Undiagnosable disk reader root named f
  /-- The path of the file leads nowhere, where that of the root directory is in order. -/
  | named {l : Location} {path : String} {f : Fault} (found : disk.resolve root = .ok l)
    (given : named = some path) (fails : disk.resolve path = .error f) :
    Undiagnosable disk reader root named f
  /-- What is held where the file should be cannot be diagnosed. -/
  | content {l : Location} {file : Option Location} {f : Fault} (found : disk.resolve root = .ok l)
    (located : named.mapM disk.resolve = .ok file)
    (held : (disk.content (configLocation l file)).Undiagnosable reader
      (configLocation l file).text f) : Undiagnosable disk reader root named f

section Disks

variable {reader : Reader} {path : String} {f : Fault}

/-- Bytes are a file whose reading fails if they are no text or the reader fails on their text. -/
theorem undiagnosable_file_iff {bytes : ByteArray} :
    (Entry.file (reader.ofBytes bytes)).Undiagnosable path f ↔
      (Content.file bytes).Undiagnosable reader path f := by
  unfold Reader.ofBytes
  -- either the bytes are no text, or the reader is asked for it
  cases htext : textOfBytes? bytes with
  | none =>
    constructor
    · intro h
      cases h
      exact .undecodable htext
    · intro h
      cases h with
      | undecodable _ => exact .document
      | unreadable textual _ => cases htext.symm.trans textual
      | unwritable textual _ _ => cases htext.symm.trans textual
  | some text =>
    dsimp only
    constructor
    · generalize hreading : reader text = reading
      intro h
      cases h with
      | document => exact .unreadable htext hreading
      | unwritable long => exact .unwritable htext hreading long
    · intro h
      cases h with
      | undecodable untextual => cases htext.symm.trans untextual
      | unreadable textual fails =>
        cases htext.symm.trans textual
        rw [fails]
        exact .document
      | unwritable textual read long =>
        cases htext.symm.trans textual
        rw [read]
        exact .unwritable long

/-- What a disk holds ends a diagnosis as what stands there does. -/
theorem undiagnosable_entry_iff (content : Content) :
    (content.entry reader).Undiagnosable path f ↔ content.Undiagnosable reader path f := by
  cases content with
  | nothing => exact ⟨nofun, nofun⟩
  | directory =>
    constructor
    · intro h
      cases h
      exact .directory
    · intro h
      cases h
      exact .directory
  | file bytes => exact undiagnosable_file_iff
  | unopenable g =>
    constructor
    · intro h
      cases h
      exact .unopenable
    · intro h
      cases h
      exact .document
  | failing g =>
    constructor
    · intro h
      cases h
      exact .failing
    · intro h
      cases h
      exact .failing

/-- A path that is named leads nowhere, or there is none. -/
theorem mapM_resolve_eq_error_iff {resolve : String → Except Fault Location}
    {named : Option String} :
    named.mapM resolve = .error f ↔ ∃ path, named = some path ∧ resolve path = .error f := by
  cases named with
  | none => exact ⟨nofun, nofun⟩
  | some path =>
    have hmap : (some path).mapM resolve = (resolve path).map some := rfl
    rw [hmap, map_eq_error_iff]
    simp

variable {disk : Disk} {root : String} {named : Option String} {expected : Bool}

/-- A diagnosis at paths fails at the first path that fails, and otherwise as what is held there
does. -/
theorem diagnose_at_eq_error_iff :
    disk.diagnose reader root named expected = .error f ↔
      disk.Undiagnosable reader root named f := by
  unfold Disk.diagnose
  simp only [bind_eq_error_iff, mapM_resolve_eq_error_iff, diagnose_eq_error_iff, Disk.storage,
    undiagnosable_entry_iff]
  constructor
  · rintro (fails | ⟨l, found, ⟨path, given, fails⟩ | ⟨file, located, held⟩⟩)
    · exact .root fails
    · exact .named found given fails
    · exact .content found located held
  · intro h
    cases h with
    | root fails => exact .inl fails
    | named found given fails => exact .inr ⟨_, found, .inl ⟨_, given, fails⟩⟩
    | content found located held => exact .inr ⟨_, found, .inr ⟨_, located, held⟩⟩

/-- **How a diagnosis ends.** Whatever the disk holds and however it fails, whichever reader its
files are read by, whichever file is named, and whether or not one is expected, a diagnosis ends in
a report exactly when neither the paths nor what is held where they lead gives rise to a fault, and
otherwise ends in the fault that they give rise to.

What is left out is how deep a document is nested: a program that has a limit for that may also fail
at it, in reading or in showing a value. -/
theorem diagnose_ends (disk : Disk) (reader : Reader) (root : String) (named : Option String)
    (expected : Bool) :
    ((∃ ds, disk.diagnose reader root named expected = .ok ds) ↔
      ∀ f, ¬ disk.Undiagnosable reader root named f) ∧
    ∀ f, disk.diagnose reader root named expected = .error f ↔
      disk.Undiagnosable reader root named f := by
  have hfault (f : Fault) : disk.diagnose reader root named expected = .error f ↔
      disk.Undiagnosable reader root named f := diagnose_at_eq_error_iff
  refine ⟨?_, hfault⟩
  simp only [← hfault]
  cases disk.diagnose reader root named expected <;> simp

/-- A date that no calendar has ends a diagnosis. -/
theorem diagnose_impossible_date :
    let content : Location → Content := fun l =>
      if l = .top then .directory
      else if l = configLocation .top none then .file "today: 2017-02-30\n".toUTF8
      else .nothing
    Disk.diagnose ⟨Location.top.seek, content⟩ Yaml.reader "." none false = .error .dayRange := by
  decide +kernel

end Disks

end Verdict
