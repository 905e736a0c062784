import Verdict.Config.Diagnose
import Verdict.Proofs.Attempt
import Verdict.Proofs.Config.Taken
/-!
# Findings against readings

Each part of a configuration is read by loading and looked at by a diagnosis, on ways of their own.
This module holds the two against each other, part by part: the keys of the document, the date, the
context data, the settings and the rules. Reading a part is refused exactly when the diagnosis has a
finding of its own for it, which leaves out what lint says about rules; and the error that refuses a
part is of a kind that belongs to that part.

A reading stops at the first entry that is wrong and a diagnosis lists them all, so what is compared
is whether there are any.
-/

namespace Verdict

/-- Whether a code is one of a configuration, as against those of rules. -/
def IsConfigCode (code : String) : Prop := "CFG".toList <+: code.toList

instance (code : String) : Decidable (IsConfigCode code) :=
  inferInstanceAs (Decidable (_ <+: _))

/-- Whether there is a finding that is no rule's. -/
def HasConfigFinding (fs : List Finding) : Prop := ∃ f ∈ fs, IsConfigCode f.code

theorem not_hasConfigFinding_nil : ¬ HasConfigFinding [] :=
  fun ⟨_, hf, _⟩ => List.not_mem_nil hf

theorem hasConfigFinding_append {fs gs : List Finding} :
    HasConfigFinding (fs ++ gs) ↔ HasConfigFinding fs ∨ HasConfigFinding gs := by
  simp only [HasConfigFinding, List.mem_append, or_and_right, exists_or]

theorem hasConfigFinding_flatMap {α : Type} {l : List α} {findings : α → List Finding} :
    HasConfigFinding (l.flatMap findings) ↔ ∃ a ∈ l, HasConfigFinding (findings a) := by
  simp only [HasConfigFinding, List.mem_flatMap]
  constructor
  · rintro ⟨f, ⟨a, ha, hf⟩, hcode⟩
    exact ⟨a, ha, f, hf, hcode⟩
  · rintro ⟨a, ha, f, hf, hcode⟩
    exact ⟨f, ⟨a, ha, hf⟩, hcode⟩

/-- Where every code is a configuration's, any finding will do. -/
theorem hasConfigFinding_iff_ne_nil {fs : List Finding} {code : String} (hcode : IsConfigCode code)
    (h : ∀ f ∈ fs, f.code = code) : HasConfigFinding fs ↔ fs ≠ [] := by
  constructor
  · rintro ⟨f, hf, -⟩ rfl
    exact List.not_mem_nil hf
  · intro hne
    obtain ⟨f, hf⟩ := List.exists_mem_of_ne_nil fs hne
    exact ⟨f, hf, h f hf ▸ hcode⟩

/-- Findings without a code are not selected by it. -/
theorem filter_code_eq_nil {fs : List Finding} {code : String} (h : ∀ f ∈ fs, f.code ≠ code) :
    fs.filter (fun f => f.code = code) = [] := by
  rw [List.filter_eq_nil_iff]
  exact fun f hf => by simpa using h f hf

/-! ## Sections -/

/-- All keys are texts when the entries are those of a row of texts. -/
theorem textEntries?_eq_some_iff {es : List (Value × Value)} {entries : List (String × Value)} :
    Value.textEntries? es = some entries ↔ es = entries.map fun e => (.text e.1, e.2) := by
  -- on the entries; a key that is no text leaves no table
  induction es generalizing entries with
  | nil =>
    cases entries <;> simp [Value.textEntries?]
  | cons e es ih =>
    obtain ⟨k, v⟩ := e
    cases k with
    | text k =>
      rw [Value.textEntries?, Option.map_eq_some_iff]
      constructor
      · rintro ⟨rest, hrest, rfl⟩
        rw [List.map_cons, ih.1 hrest]
      · intro h
        cases entries with
        | nil => cases h
        | cons entry rest =>
          simp only [List.map_cons, List.cons.injEq, Prod.mk.injEq, Value.text.injEq] at h
          obtain ⟨⟨rfl, rfl⟩, hrest⟩ := h
          exact ⟨rest, ih.2 hrest, rfl⟩
    | _ => cases entries <;> simp [Value.textEntries?]

/-- The keys of a section are texts exactly when there is no finding for a key. -/
theorem isSome_textEntries?_iff {name : String} {es : List (Value × Value)} {fs : List Finding}
    (h : keyFindings name es = .ok fs) : (Value.textEntries? es).isSome ↔ fs = [] := by
  induction es generalizing fs with
  | nil =>
    cases h
    simp [Value.textEntries?]
  | cons e es ih =>
    obtain ⟨k, v⟩ := e
    cases k with
    | text k =>
      rw [Value.textEntries?, Option.isSome_map]
      exact ih h
    | _ =>
      -- any other key makes a finding, and there are no text entries from it on
      simp only [keyFindings, bind_eq_ok_iff] at h
      obtain ⟨shown, -, rest, -, h⟩ := h
      cases h
      simp [Value.textEntries?]

/-- Keys of sections are reported under one code. -/
theorem code_of_keyFindings {name : String} {es : List (Value × Value)} {fs : List Finding}
    (h : keyFindings name es = .ok fs) : ∀ f ∈ fs, f.code = "CFG005" := by
  induction es generalizing fs with
  | nil =>
    cases h
    exact fun f hf => absurd hf List.not_mem_nil
  | cons e es ih =>
    obtain ⟨k, v⟩ := e
    cases k with
    | text k => exact ih h
    | _ =>
      simp only [keyFindings, bind_eq_ok_iff] at h
      obtain ⟨shown, -, rest, hrest, h⟩ := h
      cases h
      exact List.forall_mem_cons.2 ⟨rfl, ih hrest⟩

section Sections

variable {entries : List (Value × Value)} {name : String} {fs : List Finding}

theorem code_of_sectionFindings (h : sectionFindings entries name = .ok fs) :
    ∀ f ∈ fs, f.code = "CFG005" := by
  unfold sectionFindings at h
  split at h
  · cases h
    exact fun f hf => absurd hf List.not_mem_nil
  · exact code_of_keyFindings h
  · cases h
    exact fun f hf => by rw [List.mem_singleton.1 hf]

/-- A section is read exactly when there is no finding for its kind or its keys. -/
theorem readSection_isOk_iff (h : sectionFindings entries name = .ok fs) :
    (∃ es, readSection name (sectionValue entries name) = .ok es) ↔ ¬ HasConfigFinding fs := by
  rw [hasConfigFinding_iff_ne_nil (by decide) (code_of_sectionFindings h), Classical.not_not]
  unfold sectionFindings at h
  unfold readSection
  cases hv : sectionValue entries name with
  | null =>
    rw [hv] at h
    cases h
    simp
  | map es =>
    rw [hv] at h
    rw [← isSome_textEntries?_iff h]
    cases htexts : Value.textEntries? es <;> simp [htexts]
  | _ =>
    rw [hv] at h
    cases h
    simp

/-- A section that is read has the entries that a diagnosis goes through, with the texts that their
keys are. -/
theorem sectionEntries_of_readSection {es : List (String × Value)}
    (h : readSection name (sectionValue entries name) = .ok es) :
    sectionEntries entries name = es.map fun e => (.text e.1, e.2) := by
  unfold readSection at h
  unfold sectionEntries
  split at h
  · next hv =>
    cases h
    rw [hv]
    rfl
  · next es' hv =>
    split at h
    · next htexts =>
      cases h
      rw [hv]
      exact textEntries?_eq_some_iff.1 htexts
    · cases h
  · cases h

/-- Looking for an entry that is wrong finds none exactly when a diagnosis goes through the entries
without a finding, provided that both mean the same by wrong. -/
theorem find?_eq_none_iff {es : List (String × Value)} {good : Value → Bool}
    {findings : Value × Value → List Finding}
    (h : readSection name (sectionValue entries name) = .ok es)
    (hfindings : ∀ key v, HasConfigFinding (findings (.text key, v)) ↔ good v = false) :
    es.find? (fun e => !good e.2) = none ↔
      ¬ HasConfigFinding ((sectionEntries entries name).flatMap findings) := by
  rw [sectionEntries_of_readSection h, List.flatMap_map, hasConfigFinding_flatMap]
  simp [hfindings]

theorem error_of_readSection {v : Value} {e : ConfigError} (h : readSection name v = .error e) :
    e = .notSection name := by
  unfold readSection at h
  repeat' split at h
  all_goals cases h
  all_goals rfl

end Sections

/-! ## Settings -/

theorem code_of_settingFindings (e : Value × Value) :
    ∀ f ∈ settingFindings e, f.code = "CFG005" := by
  unfold settingFindings
  repeat' split
  all_goals simp

theorem hasConfigFinding_settingFindings (key : String) (v : Value) :
    HasConfigFinding (settingFindings (.text key, v)) ↔ v.isScalar = false := by
  rw [hasConfigFinding_iff_ne_nil (by decide) (code_of_settingFindings _), settingFindings]
  cases v.isScalar <;> simp

/-- The settings are refused exactly when there is a finding for their section or for one of their
entries. Writing their texts may still end in a fault. -/
theorem readSettings_refusesIff {entries : List (Value × Value)} {fs : List Finding}
    (h : sectionFindings entries "env" = .ok fs) :
    RefusesIff (HasConfigFinding fs ∨
        HasConfigFinding ((sectionEntries entries "env").flatMap settingFindings))
      (readSettings (sectionValue entries "env")) := by
  unfold readSettings
  split
  · next hnull =>
    -- a section that holds nothing has neither entries nor findings
    rw [sectionFindings, hnull] at h
    cases h
    refine .ok ?_ _
    simp [sectionEntries, hnull, not_hasConfigFinding_nil]
  · refine (RefusesIff.orDeclared (readSection_isOk_iff h)).bind fun es hes => ?_
    have hfind := find?_eq_none_iff (orDeclared_eq_ok_iff.1 hes) hasConfigFinding_settingFindings
    split
    · next hsome =>
      refine .declared (Classical.byContradiction fun hnot => ?_) _
      rw [hfind.2 hnot] at hsome
      cases hsome
    · next hnone => exact (RefusesIff.orFault (hfind.1 hnone) _).bind_ok fun _ => ⟨_, rfl⟩

/-- Settings are refused for the section as a whole or for one of them. -/
theorem declared_of_readSettings {v : Value} {e : ConfigError}
    (h : readSettings v = .error (.declared e)) :
    e = .notSection "env" ∨ ∃ key, e = .notScalar key := by
  unfold readSettings at h
  split at h
  · cases h
  · rcases bind_eq_error_iff.1 h with h | ⟨es, -, h⟩
    · exact .inl (error_of_readSection (orDeclared_eq_declared_iff.1 h))
    · split at h
      · next entry _ =>
        cases h
        exact .inr ⟨entry.1, rfl⟩
      · rcases bind_eq_error_iff.1 h with h | ⟨texts, -, h⟩
        · exact absurd h orFault_ne_declared
        · cases h

/-! ## Rules -/

/-- The codes of lint are no configuration's. -/
theorem RuleProblem.not_isConfigCode (p : RuleProblem) : ¬ IsConfigCode p.code := by
  cases p <;> simp only [RuleProblem.code] <;> decide

/-- Rules are reported for their kind or for what lint says of them. -/
theorem code_of_ruleFindings (e : Value × Value) :
    ∀ f ∈ ruleFindings e, f.code = "CFG005" ∨ ∃ p : RuleProblem, f.code = p.code := by
  intro f hf
  unfold ruleFindings at hf
  repeat' split at hf
  · exact .inl (by rw [List.mem_singleton.1 hf]; rfl)
  · obtain ⟨p, -, rfl⟩ := List.mem_map.1 hf
    exact .inr ⟨p, rfl⟩
  · exact .inl (by rw [List.mem_singleton.1 hf]; rfl)
  · exact absurd hf List.not_mem_nil

/-- Apart from what lint says, there is a finding for an entry of the rules exactly when it is no
rule. -/
theorem hasConfigFinding_ruleFindings (key : String) (v : Value) :
    HasConfigFinding (ruleFindings (.text key, v)) ↔ v.isRule = false := by
  have hcode : IsConfigCode "CFG005" := by decide
  have hnotRule : ∀ field, HasConfigFinding [ruleFindings.notRule field] :=
    fun field => ⟨_, List.mem_singleton.2 rfl, hcode⟩
  unfold ruleFindings
  cases v with
  | text rule =>
    by_cases hblank : Text.isBlankText rule = true
    · simp [hblank, hnotRule, Value.isRule]
    · simp [hblank, HasConfigFinding, Value.isRule, RuleProblem.not_isConfigCode]
  | _ => simp [hnotRule, Value.isRule]

/-- The rules are read exactly when there is no finding for their section and every entry is a rule,
whatever lint says. -/
theorem readRules_isOk_iff {entries : List (Value × Value)} {fs : List Finding}
    (h : sectionFindings entries "rules" = .ok fs) :
    (∃ t, readRules (sectionValue entries "rules") = .ok t) ↔ ¬ (HasConfigFinding fs ∨
      HasConfigFinding ((sectionEntries entries "rules").flatMap ruleFindings)) := by
  rw [not_or, ← readSection_isOk_iff h]
  unfold readRules
  constructor
  · rintro ⟨t, ht⟩
    obtain ⟨es, hes, ht⟩ := bind_eq_ok_iff.1 ht
    split at ht
    · cases ht
    · next hnone => exact ⟨⟨es, hes⟩, (find?_eq_none_iff hes hasConfigFinding_ruleFindings).1 hnone⟩
  · rintro ⟨⟨es, hes⟩, hnot⟩
    have hnone := (find?_eq_none_iff hes hasConfigFinding_ruleFindings).2 hnot
    refine ⟨.ofList (es.map fun e => (e.1, e.2.asText?.getD "")), bind_eq_ok_iff.2 ⟨es, hes, ?_⟩⟩
    rw [hnone]
    rfl

theorem error_of_readRules {v : Value} {e : ConfigError} (h : readRules v = .error e) :
    e = .notSection "rules" ∨ ∃ name, e = .notRule name := by
  rcases bind_eq_error_iff.1 h with h | ⟨es, -, h⟩
  · exact .inl (error_of_readSection h)
  · split at h
    · next entry _ =>
      cases h
      exact .inr ⟨entry.1, rfl⟩
    · cases h

/-! ## The date -/

section Dates

variable {entries : List (Value × Value)} {fs : List Finding}

theorem code_of_dateFindings (h : dateFindings entries = .ok fs) : ∀ f ∈ fs, f.code = "CFG006" := by
  unfold dateFindings at h
  split at h
  · cases h
    exact fun f hf => absurd hf List.not_mem_nil
  · cases h
    exact fun f hf => by rw [List.mem_singleton.1 hf]
  · cases h

/-- The date is refused exactly when there is a finding for it. -/
theorem readDate_refusesIff (h : dateFindings entries = .ok fs) :
    RefusesIff (HasConfigFinding fs) (readDate "today" (sectionTaken entries "today")) := by
  rw [hasConfigFinding_iff_ne_nil (by decide) (code_of_dateFindings h)]
  unfold dateFindings at h
  split at h
  · next d hd =>
    cases h
    rw [hd]
    exact .ok (not_not_intro rfl) d
  · next e he =>
    cases h
    rw [he]
    exact .declared (List.cons_ne_nil _ _) e
  · cases h

end Dates

theorem declared_of_readDate {key : String} {v : Value} {e : ConfigError}
    (h : readDate key v = .error (.declared e)) : ∃ shown, e = .notDate key shown := by
  unfold readDate at h
  repeat' split at h
  all_goals cases h
  all_goals exact ⟨_, rfl⟩

end Verdict
