import Verdict.Proofs.Config.Findings
import Verdict.Proofs.Report.Sorting
/-!
# Loading and diagnosing agree

Loading and a diagnosis go through a configuration file on ways of their own. Short of faults they
come to the same verdict (`loadConfig_agrees_with_diagnose`): loading is refused exactly when the
diagnosis has something of a configuration's code to report, and the keys that it names as unknown
are the ones that the diagnosis lists, in the same order.

The parts are compared in `Findings`; here they are put together. Loading takes the parts one after
the other and the diagnosis collects them in another order, so the comparison is of what both say of
the whole. The keys need one thing more, that sorting the diagnostics leaves them in their order.
-/

namespace Verdict

/-! ## Keys -/

section Keys

variable {texts keys : List String}

theorem eraseDups_eq_nil_iff : keys.eraseDups = [] ↔ keys = [] := by
  cases keys <;> simp [List.eraseDups_cons]

/-- There are findings for keys exactly when there are keys that no configuration has. -/
theorem hasConfigFinding_unknownKeys :
    HasConfigFinding ((unknownKeys texts).map unknownKeyFinding) ↔ unknownKeys texts ≠ [] := by
  have hcodes : ∀ f ∈ (unknownKeys texts).map unknownKeyFinding, f.code = "CFG004" := by
    intro f hf
    obtain ⟨key, -, rfl⟩ := List.mem_map.1 hf
    rfl
  rw [hasConfigFinding_iff_ne_nil (by decide) hcodes, Ne, List.map_eq_nil_iff]

/-- Unknown keys are in order. -/
theorem pairwise_unknownKeys :
    (unknownKeys texts).Pairwise fun s t => (compare s t).isLE = true :=
  (pairwise_sortTexts texts).filter _

end Keys

/-! ## The entries of a document -/

section Entries

variable {entries : List (Value × Value)} {texts : List String} {fs : List Finding}

/-- Unknown keys refuse a document before anything else in it is looked at. -/
theorem ofEntries_of_unknown (htexts : keyTexts entries = .ok texts)
    (hunknown : unknownKeys texts ≠ []) :
    Config.ofEntries entries =
      .error (.declared (.unknownKeys (unknownKeys texts).eraseDups)) := by
  have hsome : (unknownKeys texts).eraseDups.isEmpty = false := by
    rw [List.isEmpty_eq_false_iff, Ne, eraseDups_eq_nil_iff]
    exact hunknown
  unfold Config.ofEntries
  rw [htexts, orFault]
  simp only [bind, Except.bind, hsome, Bool.not_false, if_true]

/-- Where no key is unknown, the parts are read one after the other. -/
theorem ofEntries_of_known (htexts : keyTexts entries = .ok texts)
    (hknown : unknownKeys texts = []) :
    Config.ofEntries entries = (do
      let today ← readDate "today" (sectionTaken entries "today")
      let context ← orDeclared (readSection "context" (sectionTaken entries "context"))
      let env ← readSettings (sectionValue entries "env")
      let rules ← orDeclared (readRules (sectionValue entries "rules"))
      return ⟨today, .ofList (Value.eachTaken context), env, rules⟩) := by
  unfold Config.ofEntries
  rw [htexts, orFault]
  simp only [bind, Except.bind, hknown, List.eraseDups_nil, List.isEmpty_nil, Bool.not_true,
    Bool.false_eq_true, if_false]

/-- What a diagnosis of entries is made of. -/
theorem entryFindings_eq_ok_iff :
    entryFindings entries = .ok fs ↔ ∃ texts context env rules today,
      keyTexts entries = .ok texts ∧ sectionFindings entries "context" = .ok context ∧
      sectionFindings entries "env" = .ok env ∧ sectionFindings entries "rules" = .ok rules ∧
      dateFindings entries = .ok today ∧
      (unknownKeys texts).map unknownKeyFinding ++ context ++ env ++ rules ++
        (sectionEntries entries "env").flatMap settingFindings ++ today ++
        (sectionEntries entries "rules").flatMap ruleFindings = fs := by
  unfold entryFindings
  simp only [bind_eq_ok_iff]
  constructor
  · rintro ⟨texts, htexts, context, hcontext, env, henv, rules, hrules, today, htoday, h⟩
    cases h
    exact ⟨texts, context, env, rules, today, htexts, hcontext, henv, hrules, htoday, rfl⟩
  · rintro ⟨texts, context, env, rules, today, htexts, hcontext, henv, hrules, htoday, rfl⟩
    exact ⟨texts, htexts, context, hcontext, env, henv, rules, hrules, today, htoday, rfl⟩

/-- A document without entries has no findings. -/
theorem entryFindings_nil : entryFindings [] = .ok [] := by
  refine entryFindings_eq_ok_iff.2 ⟨[], [], [], [], [], rfl, rfl, rfl, rfl, rfl, ?_⟩
  simp [unknownKeys, sortTexts, sectionEntries, sectionValue, Value.entry?]

/-- Entries are refused exactly when there is a finding of a configuration's code. -/
theorem ofEntries_refusesIff (h : entryFindings entries = .ok fs) :
    RefusesIff (HasConfigFinding fs) (Config.ofEntries entries) := by
  obtain ⟨texts, context, env, rules, today, htexts, hcontext, henv, hrules, htoday, rfl⟩ :=
    entryFindings_eq_ok_iff.1 h
  by_cases hknown : unknownKeys texts = []
  · have hkeys : ¬ HasConfigFinding ((unknownKeys texts).map unknownKeyFinding) := by
      rw [hasConfigFinding_unknownKeys, hknown]
      exact not_not_intro rfl
    rw [ofEntries_of_known htexts hknown]
    have hdata := readSection_taken_isOk_iff.trans (readSection_isOk_iff hcontext)
    refine RefusesIff.congr ((readDate_refusesIff htoday).bind fun date _ =>
      (RefusesIff.orDeclared hdata).bind fun data _ =>
        (readSettings_refusesIff henv).bind fun settings _ =>
          (RefusesIff.orDeclared (readRules_isOk_iff hrules)).bind_ok fun rules => ⟨_, rfl⟩) ?_
    -- the parts stand in one order in the reading and in another in the diagnosis
    simp only [hasConfigFinding_append, hkeys, false_or]
    grind
  · rw [ofEntries_of_unknown htexts hknown]
    have hkeys := hasConfigFinding_unknownKeys.2 hknown
    refine .declared ?_ _
    simp only [hasConfigFinding_append, hkeys, true_or]

/-- The parts of a configuration are read from the sections of the document. -/
theorem readings_of_ofEntries {config : Config} (h : Config.ofEntries entries = .ok config) :
    readDate "today" (sectionTaken entries "today") = .ok config.today ∧
      readSettings (sectionValue entries "env") = .ok config.env ∧
      readRules (sectionValue entries "rules") = .ok config.rules := by
  obtain ⟨texts, -, h⟩ := bind_eq_ok_iff.1 h
  dsimp only at h
  split at h
  · cases h
  · obtain ⟨today, htoday, h⟩ := bind_eq_ok_iff.1 h
    obtain ⟨context, -, h⟩ := bind_eq_ok_iff.1 h
    obtain ⟨env, henv, h⟩ := bind_eq_ok_iff.1 h
    obtain ⟨rules, hrules, h⟩ := bind_eq_ok_iff.1 h
    cases h
    exact ⟨htoday, henv, orDeclared_eq_ok_iff.1 hrules⟩

/-- What refuses a document refuses its keys, or one of its parts. -/
theorem refusal_of_ofEntries {e : ConfigError}
    (h : Config.ofEntries entries = .error (.declared e)) :
    (∃ texts, keyTexts entries = .ok texts ∧ e = .unknownKeys (unknownKeys texts).eraseDups) ∨
      readDate "today" (sectionTaken entries "today") = .error (.declared e) ∨
      readSection "context" (sectionTaken entries "context") = .error e ∨
      readSettings (sectionValue entries "env") = .error (.declared e) ∨
      readRules (sectionValue entries "rules") = .error e := by
  rcases bind_eq_error_iff.1 h with h | ⟨texts, htexts, h⟩
  · exact absurd h orFault_ne_declared
  · dsimp only at h
    split at h
    · cases h
      exact .inl ⟨texts, orFault_eq_ok_iff.1 htexts, rfl⟩
    · rcases bind_eq_error_iff.1 h with h | ⟨today, -, h⟩
      · exact .inr (.inl h)
      rcases bind_eq_error_iff.1 h with h | ⟨data, -, h⟩
      · exact .inr (.inr (.inl (orDeclared_eq_declared_iff.1 h)))
      rcases bind_eq_error_iff.1 h with h | ⟨settings, -, h⟩
      · exact .inr (.inr (.inr (.inl h)))
      rcases bind_eq_error_iff.1 h with h | ⟨rules, -, h⟩
      · exact .inr (.inr (.inr (.inr (orDeclared_eq_declared_iff.1 h))))
      · cases h

/-- The keys that refuse a document as unknown are those of its keys, without repetition. -/
theorem keys_of_ofEntries {keys : List String} (htexts : keyTexts entries = .ok texts)
    (h : Config.ofEntries entries = .error (.declared (.unknownKeys keys))) :
    keys = (unknownKeys texts).eraseDups := by
  -- none of the parts is refused for a key of the document
  rcases refusal_of_ofEntries h with ⟨texts', htexts', hkeys⟩ | h | h | h | h
  · cases htexts.symm.trans htexts'
    exact ConfigError.unknownKeys.inj hkeys
  · obtain ⟨shown, he⟩ := declared_of_readDate h
    cases he
  · cases error_of_readSection h
  · rcases declared_of_readSettings h with he | ⟨key, he⟩ <;> cases he
  · rcases error_of_readRules h with he | ⟨name, he⟩ <;> cases he

/-- The findings for unknown keys are all that have their code. -/
theorem filter_entryFindings (h : entryFindings entries = .ok fs) :
    ∃ texts, keyTexts entries = .ok texts ∧
      fs.filter (fun f => f.code = "CFG004") = (unknownKeys texts).map unknownKeyFinding := by
  obtain ⟨texts, context, env, rules, today, htexts, hcontext, henv, hrules, htoday, rfl⟩ :=
    entryFindings_eq_ok_iff.1 h
  refine ⟨texts, htexts, ?_⟩
  -- each of the other parts has codes of its own
  have hsection : ∀ {name : String} {gs : List Finding}, sectionFindings entries name = .ok gs →
      gs.filter (fun f => f.code = "CFG004") = [] :=
    fun hgs => filter_code_eq_nil fun f hf => by rw [code_of_sectionFindings hgs f hf]; decide
  have hsettings : ((sectionEntries entries "env").flatMap settingFindings).filter
      (fun f => f.code = "CFG004") = [] :=
    filter_code_eq_nil (List.forall_mem_flatMap.2 fun e _ f hf => by
      rw [code_of_settingFindings e f hf]; decide)
  have hdate : today.filter (fun f => f.code = "CFG004") = [] :=
    filter_code_eq_nil fun f hf => by rw [code_of_dateFindings htoday f hf]; decide
  have hrule : ((sectionEntries entries "rules").flatMap ruleFindings).filter
      (fun f => f.code = "CFG004") = [] :=
    filter_code_eq_nil (List.forall_mem_flatMap.2 fun e _ f hf => by
      rcases code_of_ruleFindings e f hf with hcode | ⟨p, hcode⟩
      · rw [hcode]; decide
      · rw [hcode]; cases p <;> simp [RuleProblem.code])
  have hunknown : ((unknownKeys texts).map unknownKeyFinding).filter
      (fun f => f.code = "CFG004") = (unknownKeys texts).map unknownKeyFinding := by
    rw [List.filter_eq_self]
    intro f hf
    obtain ⟨key, -, rfl⟩ := List.mem_map.1 hf
    exact decide_eq_true rfl
  simp only [List.filter_append, hunknown, hsection hcontext, hsection henv, hsection hrules,
    hsettings, hdate, hrule, List.append_nil]

end Entries

/-! ## Documents and files -/

section Files

/-- A document is refused exactly when there is a finding of a configuration's code. -/
theorem ofDocument_refusesIff {path : String} {document : Reading} {fs : List Finding}
    (h : documentFindings document = .ok fs) :
    RefusesIff (HasConfigFinding fs) (Config.ofDocument path document) := by
  have hcode : IsConfigCode "CFG002" ∧ IsConfigCode "CFG003" := by decide
  have hyaml : ∀ message, HasConfigFinding [⟨"CFG002", "", message, ""⟩] :=
    fun _ => ⟨_, List.mem_singleton.2 rfl, hcode.1⟩
  have hkind : ∀ message, HasConfigFinding [⟨"CFG003", "", message, ""⟩] :=
    fun _ => ⟨_, List.mem_singleton.2 rfl, hcode.2⟩
  rcases document with (p | f) | v
  · cases h
    exact .declared (hyaml _) _
  · cases h
  · cases v with
    -- an empty file is read as a document without entries, and diagnosed as one with no finding
    | null => exact ofEntries_refusesIff (entryFindings_nil.trans h)
    | map entries => exact ofEntries_refusesIff h
    | _ =>
      cases h
      exact .declared (hkind _) _

/-- The unknown keys that refuse a document are the fields of the findings for them, without
repetition and in their order. -/
theorem keys_of_ofDocument {path : String} {document : Reading} {fs : List Finding}
    {keys : List String} (hfindings : documentFindings document = .ok fs)
    (h : Config.ofDocument path document = .error (.declared (.unknownKeys keys))) :
    ∃ texts, keys = (unknownKeys texts).eraseDups ∧
      fs.filter (fun f => f.code = "CFG004") = (unknownKeys texts).map unknownKeyFinding := by
  rcases document with (p | f) | v
  · cases h
  · cases h
  · cases v with
    | null =>
      obtain ⟨texts, htexts, hfilter⟩ := filter_entryFindings (entryFindings_nil.trans hfindings)
      exact ⟨texts, keys_of_ofEntries htexts h, hfilter⟩
    | map entries =>
      obtain ⟨texts, htexts, hfilter⟩ := filter_entryFindings hfindings
      exact ⟨texts, keys_of_ofEntries htexts h, hfilter⟩
    | _ => cases h

variable {storage : Storage} {root : Location} {named : Option Location}

/-- A file is loaded as its document is. -/
theorem result_loadConfig_of_file {document : Reading}
    (h : storage (configLocation root named) = .file document) :
    (loadConfig storage root named).result =
      Config.ofDocument (configLocation root named).text document := by
  unfold loadConfig
  simp only [h]
  cases Config.ofDocument (configLocation root named).text document <;> rfl

/-- The diagnostics of unknown keys keep the order of the keys. -/
theorem fields_of_sort {path : String} {fs : List Finding} {texts : List String}
    (h : fs.filter (fun f => f.code = "CFG004") = (unknownKeys texts).map unknownKeyFinding) :
    ((Diagnostic.sort (fs.map (Finding.diagnostic path))).filter
      (fun d => d.code = "CFG004")).map Diagnostic.field = unknownKeys texts := by
  have hfilter : (fs.map (Finding.diagnostic path)).filter (fun d => d.code = "CFG004") =
      (unknownKeys texts).map fun key => (unknownKeyFinding key).diagnostic path := by
    have hcode : (fun d : Diagnostic => decide (d.code = "CFG004")) ∘ Finding.diagnostic path =
        fun f => decide (f.code = "CFG004") := rfl
    rw [List.filter_map, hcode, h, List.map_map]
    rfl
  have hsorted : ((fs.map (Finding.diagnostic path)).filter (fun d => d.code = "CFG004")).Pairwise
      fun d e => (Diagnostic.order d e).isLE = true := by
    rw [hfilter, List.pairwise_map]
    refine pairwise_unknownKeys.imp fun {s t} hst => ?_
    rw [Diagnostic.order_of_eq (d := (unknownKeyFinding s).diagnostic path)
      (e := (unknownKeyFinding t).diagnostic path) rfl rfl]
    exact hst
  rw [Diagnostic.sort_eq, filter_mergeSort hsorted, hfilter, List.map_map]
  exact List.map_id _

/-- A file is diagnosed by the findings for its document, in order. -/
theorem diagnose_of_file {document : Reading} {expected : Bool} {ds : List Diagnostic}
    (h : storage (configLocation root named) = .file document) :
    diagnose storage root named expected = .ok ds ↔ ∃ fs, documentFindings document = .ok fs ∧
      Diagnostic.sort (fs.map (Finding.diagnostic (configLocation root named).text)) = ds := by
  unfold diagnose
  simp only [h]
  exact map_eq_ok_iff

/-- Loading is refused exactly when there is a diagnostic of a configuration's code. -/
theorem loadConfig_refusesIff {ds : List Diagnostic}
    (hdiagnose : diagnose storage root named named.isSome = .ok ds) :
    RefusesIff (∃ d ∈ ds, IsConfigCode d.code) (loadConfig storage root named).result := by
  cases hentry : storage (configLocation root named) with
  | missing =>
    unfold diagnose at hdiagnose
    unfold loadConfig
    simp only [hentry] at hdiagnose ⊢
    -- a path that was named has to exist; the default need not
    have hmissing : IsConfigCode "CFG001" := by decide
    cases named with
    | none =>
      cases hdiagnose
      exact .ok (fun ⟨_, hd, _⟩ => List.not_mem_nil hd) _
    | some path =>
      cases hdiagnose
      exact .declared ⟨_, List.mem_singleton.2 rfl, hmissing⟩ _
  | directory | failing f =>
    unfold diagnose at hdiagnose
    simp only [hentry] at hdiagnose
    cases hdiagnose
  | file document =>
    obtain ⟨fs, hfs, rfl⟩ := (diagnose_of_file hentry).1 hdiagnose
    rw [result_loadConfig_of_file hentry]
    refine (ofDocument_refusesIff hfs).congr ?_
    constructor
    · rintro ⟨f, hf, hcode⟩
      exact ⟨_, Diagnostic.mem_sort.2 (List.mem_map.2 ⟨f, hf, rfl⟩), hcode⟩
    · rintro ⟨d, hd, hcode⟩
      obtain ⟨f, hf, rfl⟩ := List.mem_map.1 (Diagnostic.mem_sort.1 hd)
      exact ⟨f, hf, hcode⟩

/-- **Loading and diagnosing agree.** Suppose that neither ends in a fault. Then loading is refused
exactly when there is a diagnostic of a configuration's code, diagnostics of lint alone never refuse
a configuration, and the keys that are refused as unknown are the fields of the diagnostics for
them, without repetition and in their order. -/
theorem loadConfig_agrees_with_diagnose {ds : List Diagnostic}
    (hdiagnose : diagnose storage root named named.isSome = .ok ds)
    (hload : ∀ f, (loadConfig storage root named).result ≠ .error (.fault f)) :
    ((∃ e, (loadConfig storage root named).result = .error (.declared e)) ↔
      ∃ d ∈ ds, "CFG".toList <+: d.code.toList) ∧
    ((∀ d ∈ ds, "RULE".toList <+: d.code.toList) →
      ∃ c, (loadConfig storage root named).result = .ok c) ∧
    ∀ keys, (loadConfig storage root named).result = .error (.declared (.unknownKeys keys)) →
      keys = ((ds.filter fun d => d.code = "CFG004").map Diagnostic.field).eraseDups := by
  have hverdict := loadConfig_refusesIff hdiagnose
  refine ⟨hverdict.refuses_iff hload, fun hrules => ?_, fun keys hkeys => ?_⟩
  · rcases hresult : (loadConfig storage root named).result with (e | f) | c
    · -- a code does not begin in both ways
      obtain ⟨d, hd, hconfig⟩ := hverdict.2 e hresult
      obtain ⟨rest, hcode⟩ := hrules d hd
      rw [IsConfigCode, ← hcode] at hconfig
      exact absurd (List.cons_prefix_cons.1 hconfig).1 (by decide)
    · exact absurd hresult (hload f)
    · exact ⟨c, rfl⟩
  · cases hentry : storage (configLocation root named) with
    | missing =>
      unfold loadConfig at hkeys
      simp only [hentry] at hkeys
      cases named <;> cases hkeys
    | directory | failing f =>
      unfold loadConfig at hkeys
      simp only [hentry] at hkeys
      cases hkeys
    | file document =>
      obtain ⟨fs, hfs, rfl⟩ := (diagnose_of_file hentry).1 hdiagnose
      rw [result_loadConfig_of_file hentry] at hkeys
      obtain ⟨texts, rfl, hfilter⟩ := keys_of_ofDocument hfs hkeys
      rw [fields_of_sort hfilter]

/-- A document with one key, which no configuration has. -/
theorem loadConfig_refuses_unknown_key :
    let storage : Storage := fun _ => .file (.ok (.map [(.text "sets", .null)]))
    ∃ ds, diagnose storage .top none false = .ok ds ∧
      (loadConfig storage .top none).result = .error (.declared (.unknownKeys ["sets"])) ∧
      (∃ d ∈ ds, "CFG".toList <+: d.code.toList) ∧
      ["sets"] = ((ds.filter fun d => d.code = "CFG004").map Diagnostic.field).eraseDups := by
  intro storage
  have hunknown : unknownKeys ["sets"] = ["sets"] := by
    simp [unknownKeys, sortTexts, configKeys]
  have hfindings : documentFindings (.ok (.map [(.text "sets", .null)])) = .ok _ :=
    entryFindings_eq_ok_iff.2 ⟨["sets"], [], [], [], [], rfl, rfl, rfl, rfl, rfl, rfl⟩
  have hentries : Config.ofEntries [(.text "sets", .null)] =
      .error (.declared (.unknownKeys (unknownKeys ["sets"]).eraseDups)) :=
    ofEntries_of_unknown rfl (by rw [hunknown]; exact List.cons_ne_nil _ _)
  have hfile : storage (configLocation .top none) =
      .file (.ok (.map [(.text "sets", .null)])) := rfl
  have hresult : (loadConfig storage .top none).result =
      .error (.declared (.unknownKeys ["sets"])) := by
    rw [hunknown] at hentries
    rw [result_loadConfig_of_file hfile]
    exact hentries
  have hdiagnose : diagnose storage .top none false = .ok _ :=
    (diagnose_of_file hfile).2 ⟨_, hfindings, rfl⟩
  have hagree := loadConfig_agrees_with_diagnose hdiagnose (by rw [hresult]; exact fun _ => nofun)
  exact ⟨_, hdiagnose, hresult, hagree.1.1 ⟨_, hresult⟩, hagree.2.2 _ hresult⟩

end Files

end Verdict
