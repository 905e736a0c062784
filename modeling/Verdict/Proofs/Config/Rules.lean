import Verdict.Proofs.Config.Agreement
import Verdict.Proofs.Rule.Lint
/-!
# Rules of a configuration

The rules of a configuration that is loaded are the entries of the section for them, in the order of
the file, and none of them is blank. A diagnosis lints every entry, so where it finds nothing, lint
has nothing to say of any rule that is loaded.
-/

namespace Verdict

/-- The names of the rules of a document, in order. -/
def ruleNames (entries : List (Value × Value)) : List String :=
  ((sectionEntries entries "rules").filterMap fun e => e.1.asText?).eraseDups

variable {entries : List (Value × Value)} {config : Config} {name rule : String}

/-! ## The section -/

/-- The rules that are read are the entries of the section, which are texts that are not blank. -/
theorem of_readRules {v : Value} {t : Table String} (h : readRules v = .ok t) :
    ∃ es, readSection "rules" v = .ok es ∧ (∀ e ∈ es, e.2.isRule = true) ∧
      t = .ofList (es.map fun e => (e.1, e.2.asText?.getD "")) := by
  obtain ⟨es, hes, h⟩ := bind_eq_ok_iff.1 h
  split at h
  · cases h
  · next hnone =>
    cases h
    refine ⟨es, hes, fun e he => ?_, rfl⟩
    simpa using List.find?_eq_none.1 hnone e he

/-- Rules keep the order of the file. -/
theorem keys_of_ofEntries_rules (h : Config.ofEntries entries = .ok config) :
    config.rules.keys = ruleNames entries := by
  obtain ⟨es, hes, -, hrules⟩ := of_readRules (readings_of_ofEntries h).2.2
  rw [hrules, Table.keys_ofList, ruleNames, sectionEntries_of_readSection hes]
  simp [List.filterMap_map, Function.comp_def, Value.asText?]

/-- A rule that is found stands in the section under its name, and is not blank. -/
theorem mem_of_find?_rules (h : Config.ofEntries entries = .ok config)
    (hfind : config.rules.find? name = some rule) :
    (.text name, .text rule) ∈ sectionEntries entries "rules" ∧ Text.isBlankText rule = false := by
  obtain ⟨es, hes, hgood, hrules⟩ := of_readRules (readings_of_ofEntries h).2.2
  rw [hrules] at hfind
  obtain ⟨e, he, hentry⟩ := List.mem_map.1 (Table.mem_of_find?_ofList hfind)
  obtain ⟨k, v⟩ := e
  have hrule := hgood _ he
  cases v with
  | text text =>
    cases hentry
    rw [sectionEntries_of_readSection hes]
    exact ⟨List.mem_map.2 ⟨_, he, rfl⟩, by simpa [Value.isRule, Value.asText?] using hrule⟩
  | _ => cases hrule

/-- Entries without findings have rules without reports. -/
theorem lint_of_entryFindings (hfindings : entryFindings entries = .ok [])
    (h : Config.ofEntries entries = .ok config)
    (hfind : config.rules.find? name = some rule) : lint rule = [] := by
  obtain ⟨texts, context, env, rules, today, -, -, -, -, -, hnil⟩ :=
    entryFindings_eq_ok_iff.1 hfindings
  obtain ⟨hmem, hblank⟩ := mem_of_find?_rules h hfind
  have hrule := List.flatMap_eq_nil_iff.1 (List.append_eq_nil_iff.1 hnil).2 _ hmem
  simpa [ruleFindings, hblank] using hrule

/-! ## The file -/

section Files

variable {storage : Storage} {root : Location} {named : Option Location}

/-- The rules that are loaded are in the order of the file. -/
theorem keys_of_loadConfig (h : (loadConfig storage root named).result = .ok config)
    (hfile : storage (configLocation root named) = .file (.ok (.map entries))) :
    config.rules.keys = ruleNames entries := by
  rw [result_loadConfig_of_file hfile] at h
  exact keys_of_ofEntries_rules h

/-- A configuration that has rules has them from the entries of its file. -/
theorem entries_of_loadConfig (h : (loadConfig storage root named).result = .ok config)
    (hfind : config.rules.find? name = some rule) :
    ∃ entries, storage (configLocation root named) = .file (.ok (.map entries)) ∧
      Config.ofEntries entries = .ok config := by
  cases hentry : storage (configLocation root named) with
  | missing =>
    unfold loadConfig at h
    simp only [hentry] at h
    cases named <;> cases h
    cases hfind
  | directory | failing f =>
    unfold loadConfig at h
    simp only [hentry] at h
    cases h
  | file document =>
    rw [result_loadConfig_of_file hentry] at h
    rcases document with (p | f) | v
    · cases h
    · cases h
    · cases v with
      | null =>
        -- an empty file has no section for rules
        have hrules : .ok .empty = Except.ok config.rules := (readings_of_ofEntries h).2.2
        rw [← Except.ok.inj hrules] at hfind
        cases hfind
      | map entries => exact ⟨entries, rfl, h⟩
      | _ => cases h

theorem isBlankText_of_loadConfig (h : (loadConfig storage root named).result = .ok config)
    (hfind : config.rules.find? name = some rule) : Text.isBlankText rule = false := by
  obtain ⟨entries, -, hentries⟩ := entries_of_loadConfig h hfind
  exact (mem_of_find?_rules hentries hfind).2

/-- Where a diagnosis finds nothing, lint has nothing to say of any rule that is loaded. -/
theorem lint_of_loadConfig {expected : Bool}
    (hdiagnose : diagnose storage root named expected = .ok [])
    (h : (loadConfig storage root named).result = .ok config)
    (hfind : config.rules.find? name = some rule) : lint rule = [] := by
  obtain ⟨entries, hfile, hentries⟩ := entries_of_loadConfig h hfind
  obtain ⟨fs, hfs, hsort⟩ := (diagnose_of_file hfile).1 hdiagnose
  rw [Diagnostic.sort_eq_nil_iff, List.map_eq_nil_iff] at hsort
  subst hsort
  exact lint_of_entryFindings hfs hentries hfind

end Files

end Verdict
