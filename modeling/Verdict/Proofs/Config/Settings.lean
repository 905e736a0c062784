import Verdict.Proofs.Config.Defects
import Verdict.Yaml.Document
/-!
# Settings of a configuration

A setting is meant to be one thing. What is nothing, a list or a mapping is none, and both loading
and a diagnosis say so; but a set passes for one thing with both, as a tuple would, and is written
as a whole. Of what a reader may find in a section of settings, these are all that pass
(`settings_of_file`). Under the name of a setting that is loaded one finds the text that it says,
with truth values in lower case. In which order a set says its items is left open.
-/

namespace Verdict

/-- Whether a value is one thing. -/
inductive Value.IsSingle : Value → Prop
  /-- A truth value. -/
  | bool (b : Bool) : IsSingle (.bool b)
  /-- An integer. -/
  | int (n : Int) : IsSingle (.int n)
  /-- A floating-point number. -/
  | float (x : Binary64) : IsSingle (.float x)
  /-- A text. -/
  | text (s : String) : IsSingle (.text s)
  /-- Bytes. -/
  | bytes (bs : List UInt8) : IsSingle (.bytes bs)
  /-- A date. -/
  | date (d : Date) : IsSingle (.date d)
  /-- A moment. -/
  | moment (m : Moment) : IsSingle (.moment m)

/-- What passes for one thing. -/
inductive Value.PassesForSingle : Value → Prop
  /-- One thing. -/
  | single {v : Value} (kind : v.IsSingle) : PassesForSingle v
  /-- A set. -/
  | set (items : List Value) : PassesForSingle (.set items)
  /-- A set that never changes. -/
  | frozenset (items : List Value) : PassesForSingle (.frozenset items)
  /-- A row of fixed length. -/
  | tuple (items : List Value) : PassesForSingle (.tuple items)

/-- Values that differ at most in the order in which sets, at any depth, have their items. -/
inductive Value.SameButOrder : Value → Value → Prop
  /-- They do not differ. -/
  | refl (v : Value) : SameButOrder v v
  /-- The items of a list are the same but for order. -/
  | list {xs ys : List Value} (items : List.Forall₂ SameButOrder xs ys) :
    SameButOrder (.list xs) (.list ys)
  /-- The items of a tuple are the same but for order. -/
  | tuple {xs ys : List Value} (items : List.Forall₂ SameButOrder xs ys) :
    SameButOrder (.tuple xs) (.tuple ys)
  /-- The keys and the values of a mapping are the same but for order. -/
  | map {es es' : List (Value × Value)}
    (keys : List.Forall₂ SameButOrder (es.map Prod.fst) (es'.map Prod.fst))
    (values : List.Forall₂ SameButOrder (es.map Prod.snd) (es'.map Prod.snd)) :
    SameButOrder (.map es) (.map es')
  /-- The items of a set are the same but for order, and stand in any. -/
  | set {xs ys zs : List Value} (items : List.Forall₂ SameButOrder xs ys) (order : ys.Perm zs) :
    SameButOrder (.set xs) (.set zs)
  /-- The items of a set that never changes are the same but for order, and stand in any. -/
  | frozenset {xs ys zs : List Value} (items : List.Forall₂ SameButOrder xs ys)
    (order : ys.Perm zs) : SameButOrder (.frozenset xs) (.frozenset zs)

/-- What a setting says. -/
inductive Value.Says : Value → String → Prop
  /-- A truth value says `true` or `false`. -/
  | bool (b : Bool) : Says (.bool b) (toString b)
  /-- Anything else says what it says by itself, its sets having their items in some order. -/
  | other {v w : Value} {text : String} (kind : ∀ b, v ≠ .bool b) (same : v.SameButOrder w)
    (said : w.toText = .ok text) : Says v text

variable {entries es : List (Value × Value)} {settings : List (String × Value)}

/-! ## One setting -/

/-- A setting is taken exactly if it passes for one thing. -/
theorem isScalar_iff {v : Value} : v.isScalar = true ↔ v.PassesForSingle := by
  cases v with
  | null | list _ | map _ | enclosing _ _ =>
    refine iff_of_false nofun fun h => ?_
    cases h with
    | single kind => cases kind
  | bool b => exact iff_of_true rfl (.single (.bool b))
  | int n => exact iff_of_true rfl (.single (.int n))
  | float x => exact iff_of_true rfl (.single (.float x))
  | text s => exact iff_of_true rfl (.single (.text s))
  | bytes bs => exact iff_of_true rfl (.single (.bytes bs))
  | date d => exact iff_of_true rfl (.single (.date d))
  | moment m => exact iff_of_true rfl (.single (.moment m))
  | tuple items => exact iff_of_true rfl (.tuple items)
  | set items => exact iff_of_true rfl (.set items)
  | frozenset items => exact iff_of_true rfl (.frozenset items)

/-- The text of a setting is one that the setting says. -/
theorem says_of_settingText {v : Value} {text : String} (h : v.settingText = .ok text) :
    v.Says text := by
  unfold Value.settingText at h
  split at h
  · next b =>
    cases h
    cases b
    · exact .bool false
    · exact .bool true
  · next hkind => exact .other hkind (.refl v) h

/-- One thing that is no truth value says one text, which is its own. -/
theorem says_iff_of_isSingle {v : Value} {text : String} (single : v.IsSingle)
    (kind : ∀ b, v ≠ .bool b) : v.Says text ↔ v.toText = .ok text := by
  refine ⟨fun h => ?_, .other kind (.refl v)⟩
  cases h with
  | bool b => exact absurd rfl (kind b)
  | other _ same said =>
    cases same with
    | refl => exact said
    | _ => cases single

/-! ## Looking settings up -/

/-- Where no key comes twice, a table finds exactly the entries that it was made of. -/
theorem Table.find?_ofList_iff {α : Type} {es : List (String × α)} (keyed : (es.map Prod.fst).Nodup)
    {key : String} {value : α} : (ofList es).find? key = some value ↔ (key, value) ∈ es := by
  refine ⟨mem_of_find?_ofList, fun mem => ?_⟩
  cases hfind : (ofList es).find? key with
  | none =>
    rw [find?_eq_none_iff, keys_ofList, List.mem_eraseDups] at hfind
    exact absurd (List.mem_map_of_mem mem) hfind
  | some other =>
    -- the entry that is found and the given one have one key
    have heq := List.inj_on_of_nodup_map keyed (mem_of_find?_ofList hfind) mem rfl
    rw [(Prod.mk.inj heq).2]

/-- The texts of settings stand under the names of the settings. -/
theorem of_settingTexts {texts : List (String × String)} (h : settingTexts settings = .ok texts) :
    texts.map Prod.fst = settings.map Prod.fst ∧
      ∀ e ∈ settings, ∃ text, e.2.Says text ∧ (e.1, text) ∈ texts := by
  induction settings generalizing texts with
  | nil =>
    cases h
    exact ⟨rfl, List.forall_mem_nil _⟩
  | cons e settings ih =>
    obtain ⟨text, htext, h⟩ := bind_eq_ok_iff.1 h
    obtain ⟨rest, hrest, h⟩ := bind_eq_ok_iff.1 h
    cases h
    obtain ⟨hkeys, hsaid⟩ := ih hrest
    refine ⟨by rw [List.map_cons, List.map_cons, hkeys], List.forall_mem_cons.2 ⟨?_, ?_⟩⟩
    · exact ⟨text, says_of_settingText htext, List.mem_cons_self⟩
    · intro e' he'
      obtain ⟨text', hsays, hmem⟩ := hsaid e' he'
      exact ⟨text', hsays, List.mem_cons_of_mem _ hmem⟩

/-- Under the name of a setting is what it says, and under any other name is nothing. -/
theorem find?_of_settingTexts {texts : List (String × String)}
    (h : settingTexts settings = .ok texts) (keyed : (settings.map Prod.fst).Nodup)
    (name : String) :
    (∀ v, (name, v) ∈ settings →
      ∃ text, v.Says text ∧ (Table.ofList texts).find? name = some text) ∧
    ((∀ v, (name, v) ∉ settings) → (Table.ofList texts).find? name = none) := by
  obtain ⟨hkeys, hsaid⟩ := of_settingTexts h
  rw [← hkeys] at keyed
  constructor
  · intro v mem
    obtain ⟨text, hsays, hmem⟩ := hsaid _ mem
    exact ⟨text, hsays, (Table.find?_ofList_iff keyed).2 hmem⟩
  · intro hnone
    rw [Table.find?_eq_none_iff, Table.keys_ofList, List.mem_eraseDups, hkeys]
    intro hmem
    obtain ⟨⟨k, v⟩, mem, rfl⟩ := List.mem_map.1 hmem
    exact hnone v mem

/-! ## The section -/

/-- A section whose keys are texts is read, as the row of its entries. -/
theorem readSection_of_texts (name : String) (hkeys : ∀ e ∈ es, e.1.isString = true) :
    ∃ settings : List (String × Value), es = settings.map (fun e => (.text e.1, e.2)) ∧
      readSection name (.map es) = .ok settings := by
  have hsome : ∃ settings, Value.textEntries? es = some settings := by
    induction es with
    | nil => exact ⟨[], rfl⟩
    | cons e es ih =>
      obtain ⟨hkey, hkeys⟩ := List.forall_mem_cons.1 hkeys
      obtain ⟨rest, hrest⟩ := ih hkeys
      obtain ⟨k, v⟩ := e
      cases k with
      | text k => exact ⟨(k, v) :: rest, by rw [Value.textEntries?, hrest, Option.map_some]⟩
      | _ => cases hkey
  obtain ⟨settings, hsettings⟩ := hsome
  refine ⟨settings, textEntries?_eq_some_iff.1 hsettings, ?_⟩
  rw [readSection, hsettings]

section Reading

variable {v : Value} (hread : readSection "env" v = .ok settings)

include hread

/-- Settings that are loaded are scalars, and make the table of their texts. -/
theorem of_readSettings {t : Option (Table String)} (hv : v ≠ .null) (h : readSettings v = .ok t) :
    (∀ e ∈ settings, e.2.isScalar = true) ∧
      ∃ texts, settingTexts settings = .ok texts ∧ t = some (.ofList texts) := by
  unfold readSettings at h
  split at h
  · exact absurd rfl hv
  · rw [hread] at h
    dsimp only [orDeclared, bind, Except.bind] at h
    split at h
    · cases h
    · next hnone =>
      obtain ⟨texts, htexts, h⟩ := bind_eq_ok_iff.1 h
      cases h
      exact ⟨by simpa using hnone, texts, orFault_eq_ok_iff.1 htexts, rfl⟩

/-- Settings that can be read are refused for one that is no scalar. -/
theorem exists_notScalar_of_readSettings {e : ConfigError}
    (h : readSettings v = .error (.declared e)) :
    ∃ entry ∈ settings, entry.2.isScalar = false ∧ e = .notScalar entry.1 := by
  unfold readSettings at h
  split at h
  · cases h
  · rw [hread] at h
    dsimp only [orDeclared, bind, Except.bind] at h
    split at h
    · next entry hfind =>
      cases h
      exact ⟨entry, List.mem_of_find?_eq_some hfind, by simpa using List.find?_some hfind, rfl⟩
    · rcases bind_eq_error_iff.1 h with h | ⟨texts, -, h⟩
      · exact absurd h orFault_ne_declared
      · cases h

end Reading

/-- What refuses a document for its settings is found in reading them. -/
theorem readSettings_of_refused {e : ConfigError}
    (he : e = .notSection "env" ∨ ∃ key, e = .notScalar key)
    (h : Config.ofEntries entries = .error (.declared e)) :
    readSettings (sectionValue entries "env") = .error (.declared e) := by
  rcases refusal_of_ofEntries h with ⟨texts, -, rfl⟩ | h | h | h | h
  · simp at he
  · obtain ⟨shown, rfl⟩ := declared_of_readDate h
    simp at he
  · rw [error_of_readSection h] at he
    simp at he
  · exact h
  · rcases error_of_readRules h with rfl | ⟨name, rfl⟩ <;> simp at he

/-! ## Findings -/

/-- Where settings stand under texts, a finding for the section or in it is one for a setting. -/
theorem notScalar_of_findings {d : Defect} {f : Finding}
    (hsection : sectionValue entries "env" = .map es) (hkeys : ∀ e ∈ es, e.1.isString = true)
    (hd : Defective entries d) (hf : f ∈ d.findings) (hcode : f.code = "CFG005")
    (hfield : "env".toList <+: f.field.toList) :
    ∃ name, d = .notScalar name := by
  have hentries : sectionEntries entries "env" = es := by rw [sectionEntries, hsection]
  cases hd with
  | notScalar => exact ⟨_, rfl⟩
  | unknownKey =>
    rw [List.mem_singleton.1 hf] at hcode
    exact absurd hcode (by simp [unknownKeyFinding])
  | notDate =>
    rw [List.mem_singleton.1 hf] at hcode
    exact absurd hcode (by simp)
  | @notMapping name mem nonempty kind =>
    rw [List.mem_singleton.1 hf] at hfield
    -- of the sections, only the settings begin so, and they are a mapping
    rcases mem_sectionKeys_iff.1 mem with rfl | rfl | rfl
    · exact absurd hfield (by decide)
    · exact absurd hsection (kind es)
    · exact absurd hfield (by decide)
  | @keyType name e shown mem entry kind written =>
    rw [List.mem_singleton.1 hf] at hfield
    rcases mem_sectionKeys_iff.1 mem with rfl | rfl | rfl
    · simp [keyFinding] at hfield
    · rw [hentries] at entry
      rw [hkeys e entry] at kind
      cases kind
    · simp [keyFinding] at hfield
  | notRule =>
    rw [List.mem_singleton.1 hf] at hfield
    simp [ruleFindings.notRule] at hfield
  | linted =>
    obtain ⟨p, -, rfl⟩ := List.mem_map.1 hf
    simp at hfield

theorem mem_entryFindings_iff {fs : List Finding} (h : entryFindings entries = .ok fs)
    {f : Finding} : f ∈ fs ↔ ∃ d, Defective entries d ∧ f ∈ d.findings := by
  simp only [(findings_perm_defects h).mem_iff, List.mem_flatMap, mem_defects_iff h]

/-- Where the settings stand under texts, there is a finding for each of them that is no scalar, and
none for the section. -/
theorem findings_of_settings {fs : List Finding} (h : entryFindings entries = .ok fs)
    (hsection : sectionValue entries "env" = .map es) (hkeys : ∀ e ∈ es, e.1.isString = true) :
    (∀ f ∈ fs, f.code = "CFG005" → f.field ≠ "env") ∧
    ∀ name, (∃ f ∈ fs, f.code = "CFG005" ∧ f.field = "env." ++ name) ↔
      ∃ v, (.text name, v) ∈ es ∧ v.isScalar = false := by
  have hentries : sectionEntries entries "env" = es := by rw [sectionEntries, hsection]
  -- only values that are no scalars are found at a setting
  have hsetting : ∀ f ∈ fs, f.code = "CFG005" → "env".toList <+: f.field.toList →
      ∃ name v, (.text name, v) ∈ es ∧ v.isScalar = false ∧ f.field = "env." ++ name := by
    intro f hf hcode hfield
    obtain ⟨d, hd, hfd⟩ := (mem_entryFindings_iff h).1 hf
    obtain ⟨name, rfl⟩ := notScalar_of_findings hsection hkeys hd hfd hcode hfield
    cases hd with
    | @notScalar _ v entry kind =>
      rw [List.mem_singleton.1 hfd]
      exact ⟨name, v, hentries ▸ entry, kind, rfl⟩
  constructor
  · intro f hf hcode hfield
    obtain ⟨name, v, -, -, hname⟩ := hsetting f hf hcode (hfield ▸ List.prefix_rfl)
    exact absurd (hfield.symm.trans hname) (by simp [← String.toList_inj])
  · intro name
    constructor
    · rintro ⟨f, hf, hcode, hfield⟩
      obtain ⟨name', v, mem, kind, hname⟩ := hsetting f hf hcode (by simp [hfield])
      have heq : name = name' := by simpa [← String.toList_inj] using hfield.symm.trans hname
      exact ⟨v, heq ▸ mem, kind⟩
    · rintro ⟨v, mem, kind⟩
      have hd : Defective entries (.notScalar name) := .notScalar (hentries ▸ mem) kind
      exact ⟨_, (mem_entryFindings_iff h).2 ⟨_, hd, List.mem_singleton_self _⟩, rfl, rfl⟩

/-! ## Files -/

section Files

variable {storage : Storage} {root : Location} {named : Option Location}

/-- The names of the settings are distinct where no key comes twice. -/
theorem nodup_names (keyed : WellKeyed entries)
    (hsection : sectionValue entries "env" = .map (settings.map fun e => (.text e.1, e.2))) :
    (settings.map Prod.fst).Nodup := by
  have mem : "env" ∈ sectionKeys := by decide
  have hnodup := keyed.sections mem
  rw [sectionEntries, hsection, List.map_map] at hnodup
  refine List.Nodup.of_map Value.text ?_
  rw [List.map_map]
  exact hnodup

/-- The diagnostics of a document are its findings. -/
theorem mem_of_diagnose {expected : Bool} {ds : List Diagnostic}
    (hentry : storage (configLocation root named) = .file (.ok (.map entries)))
    (h : diagnose storage root named expected = .ok ds) :
    ∃ fs, entryFindings entries = .ok fs ∧
      ∀ d, d ∈ ds ↔ ∃ f ∈ fs, f.diagnostic (configLocation root named).text = d := by
  obtain ⟨fs, hfs, rfl⟩ := (diagnose_of_file hentry).1 h
  exact ⟨fs, hfs, fun d => by rw [Diagnostic.mem_sort, List.mem_map]⟩

/-- **Which settings are taken.** Let a configuration file, as some reader reads it, have a section
of settings that stand under texts. If it is loaded, every setting is one thing, a set or a tuple,
and looking a name up gives what the setting of that name says, or nothing if there is none. If
every setting is one of these, the file is not refused for the section. And the diagnostics for the
section are those for settings that are none of them, each in the field of its setting. -/
theorem settings_of_file
    (file : storage (configLocation root named) = .file (.ok (.map entries)))
    (keyed : WellKeyed entries) (hsection : sectionValue entries "env" = .map es)
    (hkeys : ∀ e ∈ es, e.1.isString = true) :
    (∀ config, (loadConfig storage root named).result = .ok config →
      (∀ e ∈ es, e.2.PassesForSingle) ∧
      ∀ process name,
        (∀ v, (.text name, v) ∈ es → ∃ text, v.Says text ∧
          (config.settings.lookup process).find? name = .ok (some text)) ∧
        ((∀ v, (.text name, v) ∉ es) →
          (config.settings.lookup process).find? name = .ok none)) ∧
    ((∀ e ∈ es, e.2.PassesForSingle) →
      ∀ error, (loadConfig storage root named).result = .error (.declared error) →
        ¬ (error = .notSection "env" ∨ ∃ key, error = .notScalar key)) ∧
    ∀ expected ds, diagnose storage root named expected = .ok ds →
      (∀ d ∈ ds, d.code = "CFG005" → d.field ≠ "env") ∧
      ∀ name, (∃ d ∈ ds, d.code = "CFG005" ∧ d.field = "env." ++ name) ↔
        ∃ v, (.text name, v) ∈ es ∧ ¬ v.PassesForSingle := by
  -- with texts for keys, the section is read as it is
  obtain ⟨settings, rfl, hread⟩ := readSection_of_texts "env" hkeys
  have hmem {name : String} {v : Value} :
      (.text name, v) ∈ settings.map (fun e => (Value.text e.1, e.2)) ↔ (name, v) ∈ settings := by
    simp
  refine ⟨fun config h => ?_, fun hpass error h he => ?_, fun expected ds h => ?_⟩
  · rw [result_loadConfig_of_file file] at h
    have hsettings := (readings_of_ofEntries h).2.1
    rw [hsection] at hsettings
    obtain ⟨hscalars, texts, htexts, henv⟩ := of_readSettings hread (by simp) hsettings
    refine ⟨fun e he => isScalar_iff.1 ?_, fun process name => ?_⟩
    · obtain ⟨setting, hsetting, rfl⟩ := List.mem_map.1 he
      exact hscalars setting hsetting
    · rw [Config.settings, henv]
      simp only [hmem, Settings.ofTable?, Settings.lookup, Lookup.find?_ofTable, Except.ok.injEq]
      exact find?_of_settingTexts htexts (nodup_names keyed hsection) name
  · rw [result_loadConfig_of_file file] at h
    have hrefused := readSettings_of_refused he h
    rw [hsection] at hrefused
    obtain ⟨⟨name, v⟩, hsetting, hscalar, -⟩ := exists_notScalar_of_readSettings hread hrefused
    rw [isScalar_iff.2 (hpass _ (hmem.2 hsetting))] at hscalar
    cases hscalar
  · obtain ⟨fs, hfs, hds⟩ := mem_of_diagnose file h
    obtain ⟨hsectionless, hsettings⟩ := findings_of_settings hfs hsection hkeys
    simp only [hds, exists_exists_and_eq_and, forall_exists_index, and_imp,
      forall_apply_eq_imp_iff₂]
    refine ⟨hsectionless, fun name => (hsettings name).trans (exists_congr fun v => ?_)⟩
    rw [← isScalar_iff, Bool.not_eq_true]

/-- A truth value is loaded in lower case beside a set, and nothing besides the two. -/
theorem settings_of_file_said :
    let settings : List (Value × Value) :=
      [(.text "A", .bool true), (.text "B", .set [.text "a"])]
    let storage : Storage := fun _ => .file (.ok (.map [(.text "env", .map settings)]))
    ∃ config, (loadConfig storage .top none).result = .ok config ∧ ∀ process,
      (config.settings.lookup process).find? "A" = .ok (some "true") ∧
      (∃ text, (config.settings.lookup process).find? "B" = .ok (some text)) ∧
      (config.settings.lookup process).find? "C" = .ok none := by
  intro settings storage
  -- that the file is loaded is computed; what it says follows from the theorem
  have hloaded : (loadConfig storage .top none).result.map (fun _ => ()) = .ok () := by
    decide +kernel
  obtain ⟨config, hconfig, -⟩ := map_eq_ok_iff.1 hloaded
  have keyed : WellKeyed [(.text "env", .map settings)] := by
    refine ⟨by simp, fun mem => ?_⟩
    rcases mem_sectionKeys_iff.1 mem with rfl | rfl | rfl <;>
      simp [sectionEntries, sectionValue, settings, Value.entry?, Value.isText]
  have hfile : storage (configLocation .top none) =
      .file (.ok (.map [(.text "env", .map settings)])) := rfl
  obtain ⟨hsettings, -, -⟩ := settings_of_file hfile keyed rfl (by decide)
  obtain ⟨-, hsaid⟩ := hsettings config hconfig
  refine ⟨config, hconfig, fun process => ⟨?_, ?_, (hsaid process "C").2 (by simp [settings])⟩⟩
  · obtain ⟨text, hsays, hfind⟩ := (hsaid process "A").1 (.bool true) (by simp [settings])
    rw [hfind]
    cases hsays with
    | bool => rfl
    | other kind _ _ => exact absurd rfl (kind true)
  · obtain ⟨text, -, hfind⟩ := (hsaid process "B").1 (.set [.text "a"]) (by simp [settings])
    exact ⟨text, hfind⟩

/-- The document of a file with one setting, which is a set. -/
theorem document_one_setting :
    Yaml.reader.ofBytes "env:\n  A: !!set \x7ba\x7d\n".toUTF8 = .ok (.map
      [(.text "env", .map [(.text "A", .set [.text "a"])])]) := by
  -- values have no decidable equality, but characters and tokens have
  have htext : textOfBytes? "env:\n  A: !!set \x7ba\x7d\n".toUTF8 =
      some "env:\n  A: !!set \x7ba\x7d\n" := by decide +kernel
  have htokens : Yaml.tokens "env:\n  A: !!set \x7ba\x7d\n".toList = .ok
      [.blockMappingStart, .key, .scalar "env" true, .value,
        .blockMappingStart, .key, .scalar "A" true, .value,
          .tag (some "!!") "set", .flowMappingStart, .scalar "a" true, .flowMappingEnd,
        .blockEnd, .blockEnd] := by decide +kernel
  simp only [Reader.ofBytes, htext, Yaml.reader, Yaml.document, Yaml.documentOfChars, htokens]
  rfl

/-- A set is not one thing, but neither loading nor a diagnosis says so. -/
theorem settings_of_file_set :
    let disk : Disk := ⟨Location.top.seek, fun l =>
      if l = configLocation .top none then .file "env:\n  A: !!set \x7ba\x7d\n".toUTF8
      else .nothing⟩
    disk.storage Yaml.reader (configLocation .top none) =
      .file (.ok (.map [(.text "env", .map [(.text "A", .set [.text "a"])])])) ∧
    ¬ (Value.set [.text "a"]).IsSingle ∧
    (∃ config, (loadConfig (disk.storage Yaml.reader) .top none).result = .ok config) ∧
    diagnose (disk.storage Yaml.reader) .top none false = .ok [] := by
  intro disk
  have hdocument : disk.storage Yaml.reader (configLocation .top none) =
      .file (.ok (.map [(.text "env", .map [(.text "A", .set [.text "a"])])])) := by
    have hcontent : disk.content (configLocation .top none) =
        .file "env:\n  A: !!set \x7ba\x7d\n".toUTF8 := by simp [disk]
    rw [← document_one_setting, Disk.storage, hcontent, Content.entry]
  have hloaded : (loadConfig (disk.storage Yaml.reader) .top none).result.map (fun _ => ()) =
      .ok () := by
    decide +kernel
  obtain ⟨config, hconfig, -⟩ := map_eq_ok_iff.1 hloaded
  refine ⟨hdocument, fun hsingle => ?_, ⟨config, hconfig⟩, by decide +kernel⟩
  cases hsingle

end Files

end Verdict
