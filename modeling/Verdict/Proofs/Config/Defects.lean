import Mathlib.Data.List.Nodup
import Verdict.Proofs.Config.Entries
import Verdict.Proofs.Config.Order
/-!
# Defects one by one

A diagnosis goes through a document several times, and each time skips what another pass reports. So
no defect is missed and none is found twice: the findings are those of the defects, each taken once
(`defects`, `findings_perm_defects`). A defect is of one key, or of one section, or of the date.

So what is wrong with an entry can be found in a document that has no other entry, and what is wrong
with the others in the document without it (`SplitsInto`). The exception is a document that holds
itself, where an entry stands in more than one place.
-/

namespace Verdict

/-- A defect of a document. -/
inductive Defect where
  /-- A key that no configuration has, and what it says. -/
  | unknownKey (key : Value) (shown : String)
  /-- A section that holds something, but no mapping. -/
  | notMapping (name : String)
  /-- A key of a section that is no text, and what it says. -/
  | keyType (name : String) (key : Value) (shown : String)
  /-- A setting that is no scalar. -/
  | notScalar (name : String)
  /-- What stands for the date is none. -/
  | notDate (error : ConfigError)
  /-- A rule that is no text, or blank. -/
  | notRule (name : String)
  /-- A rule in which lint finds problems. -/
  | linted (name rule : String)

namespace Defect

/-- The findings for a defect. -/
def findings : Defect → List Finding
  | unknownKey _ shown => [unknownKeyFinding shown]
  | notMapping name =>
    [⟨"CFG005", name, "invalid type for " ++ Diagnostic.ticked name, "expected a mapping"⟩]
  | keyType name _ shown => [keyFinding name shown]
  | notScalar name =>
    [⟨"CFG005", "env." ++ name, "invalid type for " ++ Diagnostic.ticked ("env." ++ name),
      "expected a scalar value"⟩]
  | notDate error => [⟨"CFG006", "today", error.message, ""⟩]
  | notRule name => [ruleFindings.notRule ("rules." ++ name)]
  | linted name rule => (lint rule).map fun p => ⟨p.code, "rules." ++ name, p.message, ""⟩

/-- The key of the entry that is wrong, if it is one entry. -/
def key? : Defect → Option Value
  | unknownKey key _ | keyType _ key _ => some key
  | notScalar name | notRule name | linted name _ => some (.text name)
  | notMapping _ | notDate _ => none

end Defect

/-- The passes in which a diagnosis goes through a document. -/
inductive Pass where
  /-- Through the keys. -/
  | keys
  /-- Through the keys of a section, if it is a mapping. -/
  | mapping (name : String)
  /-- Through the settings. -/
  | settings
  /-- To the date. -/
  | date
  /-- Through the rules. -/
  | rules
  deriving DecidableEq

/-- The passes in order. -/
def passes : List Pass := .keys :: sectionKeys.map .mapping ++ [.settings, .date, .rules]

/-- The defects of a document. -/
inductive Defective (entries : List (Value × Value)) : Defect → Prop
  /-- No configuration has the key. -/
  | unknownKey {e : Value × Value} {shown : String} (mem : e ∈ entries)
    (written : e.1.toText = .ok shown) (unknown : shown ∉ configKeys) :
    Defective entries (.unknownKey e.1 shown)
  /-- The section is neither empty nor a mapping. -/
  | notMapping {name : String} (mem : name ∈ sectionKeys)
    (nonempty : sectionValue entries name ≠ .null)
    (kind : ∀ es, sectionValue entries name ≠ .map es) : Defective entries (.notMapping name)
  /-- The key of an entry of a section is no text. -/
  | keyType {name : String} {e : Value × Value} {shown : String} (mem : name ∈ sectionKeys)
    (entry : e ∈ sectionEntries entries name) (kind : e.1.isString = false)
    (written : e.1.toText = .ok shown) : Defective entries (.keyType name e.1 shown)
  /-- The setting is nothing, a list or a mapping. -/
  | notScalar {name : String} {v : Value} (entry : (.text name, v) ∈ sectionEntries entries "env")
    (kind : v.isScalar = false) : Defective entries (.notScalar name)
  /-- The date is refused. -/
  | notDate {error : ConfigError}
    (refused : readDate "today" (sectionTaken entries "today") = .error (.declared error)) :
    Defective entries (.notDate error)
  /-- The rule is no text, or blank. -/
  | notRule {name : String} {v : Value} (entry : (.text name, v) ∈ sectionEntries entries "rules")
    (kind : v.isRule = false) : Defective entries (.notRule name)
  /-- Lint finds problems in the rule. -/
  | linted {name rule : String} (entry : (.text name, .text rule) ∈ sectionEntries entries "rules")
    (kind : (Value.text rule).isRule = true) (problems : lint rule ≠ []) :
    Defective entries (.linted name rule)

/-! ## Listing defects -/

/-- The defect of an entry's key, if no configuration has it. -/
def unknownDefect? (e : Value × Value) : Option Defect :=
  if e.1.said ∈ configKeys then none else some (.unknownKey e.1 e.1.said)

/-- The defect of a key of a section, if it is no text. -/
def keyDefect? (name : String) (e : Value × Value) : Option Defect :=
  if e.1.isString then none else some (.keyType name e.1 e.1.said)

/-- The defect of a setting, if it is no scalar. -/
def settingDefect? : Value × Value → Option Defect
  | (.text k, v) => if v.isScalar then none else some (.notScalar k)
  | _ => none

/-- The defect of a rule, if there is one. -/
def ruleDefect? : Value × Value → Option Defect
  | (.text k, .text rule) =>
    if Text.isBlankText rule then some (.notRule k)
    else if lint rule = [] then none else some (.linted k rule)
  | (.text k, _) => some (.notRule k)
  | _ => none

/-- The defects of a section's kind and of its keys. -/
def sectionDefects (name : String) : Value → List Defect
  | .null => []
  | .map es => es.filterMap (keyDefect? name)
  | _ => [.notMapping name]

/-- The defects that a pass finds. -/
def Pass.defects (entries : List (Value × Value)) : Pass → List Defect
  | keys => entries.filterMap unknownDefect?
  | mapping name => sectionDefects name (sectionValue entries name)
  | settings => (sectionEntries entries "env").filterMap settingDefect?
  | date =>
    match readDate "today" (sectionTaken entries "today") with
    | .error (.declared e) => [.notDate e]
    | _ => []
  | rules => (sectionEntries entries "rules").filterMap ruleDefect?

/-- The defects of a document, one by one. -/
def defects (entries : List (Value × Value)) : List Defect :=
  passes.flatMap (Pass.defects entries)

section Listing

variable {entries es : List (Value × Value)} {name : String} {fs : List Finding}

/-! ## Every finding is of a defect -/

/-- The findings for unknown keys are those of the keys, as they come. -/
theorem flatMap_unknownDefect? :
    (es.filterMap unknownDefect?).flatMap Defect.findings =
      ((es.map fun e => e.1.said).filter fun k => !configKeys.contains k).map
        unknownKeyFinding := by
  induction es with
  | nil => rfl
  | cons e es ih =>
    rw [List.filterMap_cons, List.map_cons, List.filter_cons, unknownDefect?]
    by_cases h : e.1.said ∈ configKeys
    · simp [h, ih]
    · simp [h, ih, Defect.findings]

/-- The findings for keys of a section that are no texts are those of these keys, as they come. -/
theorem flatMap_keyDefect? :
    (es.filterMap (keyDefect? name)).flatMap Defect.findings =
      (es.filter fun e => !e.1.isString).map fun e => keyFinding name e.1.said := by
  induction es with
  | nil => rfl
  | cons e es ih =>
    rw [List.filterMap_cons, List.filter_cons, keyDefect?]
    by_cases h : e.1.isString = true
    · simp [h, ih]
    · simp [h, ih, Defect.findings]

theorem findings_settingDefect? (e : Value × Value) :
    (settingDefect? e).toList.flatMap Defect.findings = settingFindings e := by
  obtain ⟨k, v⟩ := e
  cases k with
  | text k =>
    by_cases h : v.isScalar = true
    · simp [settingDefect?, settingFindings, h]
    · simp [settingDefect?, settingFindings, h, Defect.findings]
  | _ => rfl

/-- The findings for a rule are those of its one defect, if it has one. -/
theorem findings_ruleDefect? (e : Value × Value) :
    (ruleDefect? e).toList.flatMap Defect.findings = ruleFindings e := by
  obtain ⟨k, v⟩ := e
  cases k with
  | text k =>
    cases v with
    | text rule =>
      by_cases h : Text.isBlankText rule = true
      · simp [ruleDefect?, ruleFindings, h, Defect.findings]
      · by_cases h' : lint rule = []
        · simp [ruleDefect?, ruleFindings, h, h']
        · simp [ruleDefect?, ruleFindings, h, h', Defect.findings]
    | _ => rfl
  | _ => rfl

/-- The findings for the entries of a section are those of their defects. -/
theorem flatMap_filterMap {defect? : Value × Value → Option Defect}
    {findings : Value × Value → List Finding}
    (h : ∀ e, (defect? e).toList.flatMap Defect.findings = findings e) :
    (es.filterMap defect?).flatMap Defect.findings = es.flatMap findings := by
  rw [List.filterMap_eq_flatMap_toList, List.flatMap_assoc]
  exact congrArg (List.flatMap · es) (funext h)

/-- The pass through the keys of a section finds what the section is reported for. -/
theorem flatMap_mapping (h : sectionFindings entries name = .ok fs) :
    ((Pass.mapping name).defects entries).flatMap Defect.findings = fs := by
  -- both go by what stands for the section
  unfold sectionFindings at h
  rw [Pass.defects]
  cases hv : sectionValue entries name with
  | null =>
    rw [hv] at h
    cases h
    rfl
  | map es =>
    rw [hv] at h
    rw [(keyFindings_eq_ok_iff.1 h).2]
    exact flatMap_keyDefect?
  | _ =>
    rw [hv] at h
    cases h
    rfl

/-- The pass to the date finds what the date is reported for. -/
theorem flatMap_date (h : dateFindings entries = .ok fs) :
    (Pass.date.defects entries).flatMap Defect.findings = fs := by
  unfold dateFindings at h
  rw [Pass.defects]
  split at h
  · next d hd =>
    cases h
    rw [hd]
    rfl
  · next e he =>
    cases h
    rw [he]
    rfl
  · cases h

/-- What a diagnosis finds are the findings for the defects, each taken once. -/
theorem findings_perm_defects (h : entryFindings entries = .ok fs) :
    fs.Perm ((defects entries).flatMap Defect.findings) := by
  obtain ⟨texts, context, env, rules, today, htexts, hcontext, henv, hrules, htoday, rfl⟩ :=
    entryFindings_eq_ok_iff.1 h
  obtain ⟨-, rfl⟩ := keyTexts_eq_ok_iff.1 htexts
  have hunknown : ((unknownKeys (entries.map fun e => e.1.said)).map unknownKeyFinding).Perm
      ((Pass.keys.defects entries).flatMap Defect.findings) := by
    rw [Pass.defects, flatMap_unknownDefect?]
    exact ((List.mergeSort_perm _ _).filter _).map _
  have hsettings : (Pass.settings.defects entries).flatMap Defect.findings =
      (sectionEntries entries "env").flatMap settingFindings :=
    flatMap_filterMap findings_settingDefect?
  have hrule : (Pass.rules.defects entries).flatMap Defect.findings =
      (sectionEntries entries "rules").flatMap ruleFindings :=
    flatMap_filterMap findings_ruleDefect?
  -- the passes come in the order in which the findings are put together
  rw [defects, List.flatMap_assoc]
  simp only [passes, sectionKeys, List.map_cons, List.map_nil, List.cons_append, List.nil_append,
    List.flatMap_cons, List.flatMap_nil, List.append_nil, flatMap_mapping hcontext,
    flatMap_mapping henv, flatMap_mapping hrules, hsettings, flatMap_date htoday, hrule,
    List.append_assoc]
  exact hunknown.append_right _

/-! ## Every defect is listed -/

theorem mem_sectionDefects_iff {d : Defect} :
    d ∈ sectionDefects name (sectionValue entries name) ↔
      (∃ e ∈ sectionEntries entries name, keyDefect? name e = some d) ∨
        sectionValue entries name ≠ .null ∧ (∀ es, sectionValue entries name ≠ .map es) ∧
          d = .notMapping name := by
  unfold sectionEntries
  cases sectionValue entries name <;> simp [sectionDefects]

theorem settingDefect?_eq_some_iff {e : Value × Value} {d : Defect} :
    settingDefect? e = some d ↔
      ∃ k v, e = (.text k, v) ∧ v.isScalar = false ∧ Defect.notScalar k = d := by
  obtain ⟨k, v⟩ := e
  cases k with
  | text k =>
    cases h : v.isScalar <;> simp [settingDefect?, h]
  | _ => simp [settingDefect?]

/-- A rule is defective in being no rule, or in what lint says of it. -/
theorem ruleDefect?_eq_some_iff {e : Value × Value} {d : Defect} :
    ruleDefect? e = some d ↔
      (∃ k v, e = (.text k, v) ∧ v.isRule = false ∧ Defect.notRule k = d) ∨
        ∃ k rule, e = (.text k, .text rule) ∧ (Value.text rule).isRule = true ∧ lint rule ≠ [] ∧
          Defect.linted k rule = d := by
  obtain ⟨k, v⟩ := e
  cases k with
  | text k =>
    cases v with
    | text rule =>
      by_cases h : Text.isBlankText rule = true
      · simp [ruleDefect?, Value.isRule, h]
      · by_cases h' : lint rule = []
        · simp [ruleDefect?, Value.isRule, h, h']
        · simp [ruleDefect?, Value.isRule, h, h']
    | _ => simp [ruleDefect?, Value.isRule]
  | _ => simp [ruleDefect?]

theorem written_of_sectionFindings (h : sectionFindings entries name = .ok fs) :
    ∀ e ∈ sectionEntries entries name, e.1.isString = false → e.1.toText = .ok e.1.said := by
  unfold sectionFindings at h
  unfold sectionEntries
  cases hv : sectionValue entries name with
  | map es =>
    rw [hv] at h
    exact (keyFindings_eq_ok_iff.1 h).1
  | _ => exact List.forall_mem_nil _

theorem mapping_mem_passes_iff : Pass.mapping name ∈ passes ↔ name ∈ sectionKeys := by
  simp [passes]

/-- Every defect is found in the pass that it belongs to. -/
theorem mem_defects_of_defective {d : Defect} (h : Defective entries d) : d ∈ defects entries := by
  -- each constructor is listed by one pass
  cases h with
  | @unknownKey e shown mem written unknown =>
    refine List.mem_flatMap.2 ⟨.keys, by decide, List.mem_filterMap.2 ⟨e, mem, ?_⟩⟩
    rw [unknownDefect?, Value.said_of_toText written, if_neg unknown]
  | notMapping mem nonempty kind =>
    refine List.mem_flatMap.2 ⟨_, mapping_mem_passes_iff.2 mem, ?_⟩
    exact mem_sectionDefects_iff.2 (.inr ⟨nonempty, kind, rfl⟩)
  | @keyType name e shown mem entry kind written =>
    refine List.mem_flatMap.2 ⟨_, mapping_mem_passes_iff.2 mem, ?_⟩
    refine mem_sectionDefects_iff.2 (.inl ⟨e, entry, ?_⟩)
    rw [keyDefect?, if_neg (Bool.eq_false_iff.1 kind), Value.said_of_toText written]
  | notScalar entry kind =>
    refine List.mem_flatMap.2 ⟨.settings, by decide, List.mem_filterMap.2 ⟨_, entry, ?_⟩⟩
    exact settingDefect?_eq_some_iff.2 ⟨_, _, rfl, kind, rfl⟩
  | notDate refused =>
    refine List.mem_flatMap.2 ⟨.date, by decide, ?_⟩
    rw [Pass.defects, refused]
    exact List.mem_singleton_self _
  | notRule entry kind =>
    refine List.mem_flatMap.2 ⟨.rules, by decide, List.mem_filterMap.2 ⟨_, entry, ?_⟩⟩
    exact ruleDefect?_eq_some_iff.2 (.inl ⟨_, _, rfl, kind, rfl⟩)
  | linted entry kind problems =>
    refine List.mem_flatMap.2 ⟨.rules, by decide, List.mem_filterMap.2 ⟨_, entry, ?_⟩⟩
    exact ruleDefect?_eq_some_iff.2 (.inr ⟨_, _, rfl, kind, problems, rfl⟩)

/-- What a pass finds is a defect of the document. -/
theorem defective_of_mem_pass {p : Pass} (hp : p ∈ passes) {d : Defect}
    (keys : ∀ e ∈ entries, e.1.toText = .ok e.1.said)
    (sections : ∀ name ∈ sectionKeys, ∀ e ∈ sectionEntries entries name,
      e.1.isString = false → e.1.toText = .ok e.1.said)
    (h : d ∈ p.defects entries) : Defective entries d := by
  -- each pass lists the defects of one constructor or two
  cases p with
  | keys =>
    obtain ⟨e, he, h⟩ := List.mem_filterMap.1 h
    obtain ⟨hunknown, h⟩ := Option.ite_none_left_eq_some.1 h
    cases h
    exact .unknownKey he (keys e he) hunknown
  | mapping name =>
    have mem := mapping_mem_passes_iff.1 hp
    rcases mem_sectionDefects_iff.1 h with ⟨e, he, h⟩ | ⟨hnull, hmap, rfl⟩
    · obtain ⟨hkind, h⟩ := Option.ite_none_left_eq_some.1 h
      cases h
      have hkind := Bool.eq_false_iff.2 hkind
      exact .keyType mem he hkind (sections name mem e he hkind)
    · exact .notMapping mem hnull hmap
  | settings =>
    obtain ⟨e, he, h⟩ := List.mem_filterMap.1 h
    obtain ⟨k, v, rfl, hkind, rfl⟩ := settingDefect?_eq_some_iff.1 h
    exact .notScalar he hkind
  | date =>
    rw [Pass.defects] at h
    split at h
    · next error hread =>
      rw [List.mem_singleton.1 h]
      exact .notDate hread
    · exact absurd h List.not_mem_nil
  | rules =>
    obtain ⟨e, he, h⟩ := List.mem_filterMap.1 h
    rcases ruleDefect?_eq_some_iff.1 h with
      ⟨k, v, rfl, hkind, rfl⟩ | ⟨k, rule, rfl, hkind, hlint, rfl⟩
    · exact .notRule he hkind
    · exact .linted he hkind hlint

/-- A diagnosis that does not end in a fault lists the defects of the document. -/
theorem mem_defects_iff (h : entryFindings entries = .ok fs) (d : Defect) :
    d ∈ defects entries ↔ Defective entries d := by
  refine ⟨fun hd => ?_, mem_defects_of_defective⟩
  obtain ⟨texts, context, env, rules, today, htexts, hcontext, henv, hrules, -, -⟩ :=
    entryFindings_eq_ok_iff.1 h
  obtain ⟨p, hp, hd⟩ := List.mem_flatMap.1 hd
  -- the keys that are reported could be written, or the diagnosis would have ended in a fault
  refine defective_of_mem_pass hp (keyTexts_eq_ok_iff.1 htexts).1 (fun name mem => ?_) hd
  rcases mem_sectionKeys_iff.1 mem with rfl | rfl | rfl
  · exact written_of_sectionFindings hcontext
  · exact written_of_sectionFindings henv
  · exact written_of_sectionFindings hrules

/-! ## No defect is listed twice -/

end Listing

end Verdict
