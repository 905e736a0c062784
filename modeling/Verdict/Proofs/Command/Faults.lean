import Verdict.Proofs.Command.Assignments
import Verdict.Proofs.Config.LoadFaults
import Verdict.Proofs.Report.Results
/-!
# Faults of requests

A request ends in a fault where one of the layers that it goes through does: paths that lead
nowhere, options that lost their values, the diagnosis and the loading of the configuration,
assignments whose values are documents, and the rules. Each layer is come to only if those before it
are in order, so the faults of a request are given command by command (`runRequest_eq_error_iff`),
for every file system, reader and environment.
-/

namespace Verdict.Command

variable {f : Fault}

/-- Reading the value of an assignment ends in the faults of the reader alone. -/
theorem contextValue_eq_error_iff {reader : Reader} {raw : String} :
    contextValue reader raw = .error f ↔ reader raw = .error (.fault f) := by
  unfold contextValue
  split
  · next hfault => simp [hfault]
  · next hrefused => simp [hrefused]
  · next hread => split <;> simp [hread]

/-- A date on the command line is a date or refused. -/
theorem dateGiven_ne_fault {date : Option String} : dateGiven date ≠ .error (.fault f) := by
  unfold dateGiven
  rw [Ne, readDate_eq_fault_iff]
  rintro ⟨-, long⟩
  cases date with
  | none => exact Value.not_holdsLong_of_parts_eq_nil (by simp) rfl long
  | some text => exact Value.not_holdsLong_of_parts_eq_nil (by simp) rfl long

namespace Surroundings

variable {s : Surroundings} {c : Config} {date : Option (Option String)}
  {data settings : List (Option String)} {site : Site} {rule : String} {names : List String}

/-! ## Options -/

theorem dateOf_ne_fault {configured : Option Date} :
    dateOf configured date ≠ .error (.fault f) := by
  cases date with
  | none => exact nofun
  | some date => exact dateGiven_ne_fault

/-- The settings of the arguments end in a fault exactly where reading them breaks off. -/
theorem settingsOf_eq_fault_iff {configured : Option (Table String)} :
    s.settingsOf configured settings = .error (.fault f) ↔ BreaksOff asGiven settings f := by
  unfold settingsOf
  split
  · next hempty =>
    rw [List.isEmpty_iff] at hempty
    subst hempty
    exact ⟨nofun, nofun⟩
  · rw [map_eq_error_iff]
    exact allAdded_eq_fault_iff

/-- A configuration cannot be overridden exactly where, behind a date in order, the settings break
off. -/
theorem override_eq_fault_iff :
    s.override c date settings = .error (.fault f) ↔
      (∃ today, dateOf c.today date = .ok today) ∧ BreaksOff asGiven settings f := by
  unfold override
  rw [bind_eq_error_iff, or_iff_right dateOf_ne_fault]
  constructor
  · rintro ⟨today, htoday, h⟩
    rcases bind_eq_error_iff.1 h with h | ⟨env, -, h⟩
    · exact ⟨⟨today, htoday⟩, settingsOf_eq_fault_iff.1 h⟩
    · cases h
  · rintro ⟨⟨today, htoday⟩, h⟩
    exact ⟨today, htoday, bind_eq_error_iff.2 (.inl (settingsOf_eq_fault_iff.2 h))⟩

/-- An evaluator cannot be made exactly where overriding fails, or behind it the context data break
off. -/
theorem layered_eq_fault_iff :
    s.layered c data settings date = .error (.fault f) ↔
      s.override c date settings = .error (.fault f) ∨
        (∃ c', s.override c date settings = .ok c') ∧ BreaksOff (contextValue s.reader) data f := by
  have hdata : ∀ c', ((do
      return s.evaluator c' (← allAssigned (contextAssignments s.reader "--set") data) :
        Except (Failure ConfigError) Evaluator) = .error (.fault f)) ↔
      BreaksOff (contextValue s.reader) data f := by
    intro c'
    rw [bind_eq_error_iff]
    refine Iff.trans (or_iff_left ?_) allAdded_eq_fault_iff
    rintro ⟨t, -, h⟩
    cases h
  unfold layered
  rw [bind_eq_error_iff]
  simp only [hdata, exists_and_right]

/-! ## One rule -/

/-- The faults in which loading the configuration at a site ends. -/
inductive LoadMeets (s : Surroundings) (site : Site) : Fault → Prop
  /-- The path of the file leads nowhere. -/
  | path {f : Fault} (fails : site.config = .error f) : LoadMeets s site f
  /-- What stands where the file should be cannot be loaded. -/
  | file {named : Option Location} {f : Fault} (located : site.config = .ok named)
    (unloadable : (s.storage (configLocation site.root named)).Unloadable
      (configLocation site.root named).text f) : LoadMeets s site f

/-- Where the path of the file leads somewhere, what stands there is loaded. -/
theorem load_of_located {named : Option Location} (located : site.config = .ok named) :
    s.load site = loadConfig s.storage site.root named := by
  rw [load, located]

/-- What is loaded at a site is loaded from where its path leads. -/
theorem located_of_load (loaded : (s.load site).result = .ok c) :
    ∃ named, site.config = .ok named ∧ (loadConfig s.storage site.root named).result = .ok c := by
  cases located : site.config with
  | error f =>
    rw [load, located] at loaded
    cases loaded
  | ok named => exact ⟨named, rfl, load_of_located located ▸ loaded⟩

/-- Loading at a site ends in the faults of its path and of what stands there. -/
theorem load_eq_fault_iff : (s.load site).result = .error (.fault f) ↔ s.LoadMeets site f := by
  cases hconfig : site.config with
  | error g =>
    rw [load, hconfig]
    constructor
    · intro h
      cases h
      exact .path hconfig
    · intro h
      cases h with
      | path fails => rw [Except.error.inj (hconfig.symm.trans fails)]
      | file located _ => cases hconfig.symm.trans located
  | ok named =>
    rw [load_of_located hconfig]
    refine loadConfig_eq_fault_iff.trans ⟨.file hconfig, fun h => ?_⟩
    cases h with
    | path fails => cases hconfig.symm.trans fails
    | file located unloadable =>
      cases hconfig.symm.trans located
      exact unloadable

/-- The faults in which the evaluation of one rule ends. -/
inductive EvalMeets (s : Surroundings) (site : Site) (rule : String)
    (data settings : List (Option String)) (date : Option (Option String)) : Fault → Prop
  /-- The configuration cannot be loaded. -/
  | loading {f : Fault} (unloadable : s.LoadMeets site f) :
    EvalMeets s site rule data settings date f
  /-- Reading the settings breaks off, where the date is in order. -/
  | settings {c : Config} {today : Option Date} {f : Fault} (loaded : (s.load site).result = .ok c)
    (dated : dateOf c.today date = .ok today) (broken : BreaksOff asGiven settings f) :
    EvalMeets s site rule data settings date f
  /-- Reading the context data breaks off, where the date and the settings are in order. -/
  | data {c c' : Config} {f : Fault} (loaded : (s.load site).result = .ok c)
    (overridden : s.override c date settings = .ok c')
    (broken : BreaksOff (contextValue s.reader) data f) :
    EvalMeets s site rule data settings date f
  /-- A clause that the evaluation comes to overruns the digit limit, or asks for a setting whose
  lookup fails. -/
  | clause {c : Config} {E : Evaluator} {clause : String} {rest : Bits} {f : Fault}
    (loaded : (s.load site).result = .ok c) (layered : s.layered c data settings date = .ok E)
    (reached : E.Reaches s.bits (Expression.split rule) clause rest)
    (overruns : E.OverrunsClause clause f) : EvalMeets s site rule data settings date f

theorem reply_eq_error_iff {ε : Type} {refuse : ε → Reply} {e : Failure ε} :
    Failure.reply refuse e = .error f ↔ e = .fault f := by
  cases e <;> simp [Failure.reply]

theorem ruleReply_eq_error_iff {result : Except (Failure ClauseError) Bool} :
    ruleReply result = .error f ↔ result = .error (.fault f) := by
  cases result with
  | ok b => exact ⟨nofun, nofun⟩
  | error e =>
    rw [Except.error.injEq]
    exact reply_eq_error_iff

/-- The evaluation of one rule ends in the faults of its layers and in no others. -/
theorem runEval_eq_error_iff {verbose : Bool} :
    s.runEval site rule data settings date verbose = .error f ↔
      s.EvalMeets site rule data settings date f := by
  constructor
  · intro h
    -- the layers in their order: loading, the arguments laid over it, and the rule
    unfold runEval at h
    dsimp only at h
    split at h
    · next e hload =>
      rw [map_eq_error_iff, reply_eq_error_iff] at h
      subst h
      exact .loading (load_eq_fault_iff.1 hload)
    · next c hload =>
      split at h
      · next e hlayered =>
        rw [map_eq_error_iff, reply_eq_error_iff] at h
        subst h
        rcases layered_eq_fault_iff.1 hlayered with h | ⟨⟨c', hc'⟩, broken⟩
        · obtain ⟨⟨today, dated⟩, broken⟩ := override_eq_fault_iff.1 h
          exact .settings hload dated broken
        · exact .data hload hc' broken
      · next E hlayered =>
        rw [map_eq_error_iff, ruleReply_eq_error_iff, Evaluator.evaluate_eq_fault_iff] at h
        obtain ⟨clause, rest, reached, overruns⟩ := h
        exact .clause hload hlayered reached overruns
  · intro h
    unfold runEval
    dsimp only
    cases h with
    | loading unloadable =>
      rw [load_eq_fault_iff.2 unloadable]
      rfl
    | settings loaded dated broken =>
      have hlayered : s.layered _ data settings date = .error (.fault f) :=
        layered_eq_fault_iff.2 (.inl (override_eq_fault_iff.2 ⟨⟨_, dated⟩, broken⟩))
      rw [loaded]
      dsimp only
      rw [hlayered]
      rfl
    | data loaded overridden broken =>
      have hlayered : s.layered _ data settings date = .error (.fault f) :=
        layered_eq_fault_iff.2 (.inr ⟨⟨_, overridden⟩, broken⟩)
      rw [loaded]
      dsimp only
      rw [hlayered]
      rfl
    | clause loaded layered reached overruns =>
      have hresult := Evaluator.evaluate_eq_fault_iff.2 ⟨_, _, reached, overruns⟩
      rw [loaded]
      dsimp only
      rw [layered]
      exact map_eq_error_iff.2 (ruleReply_eq_error_iff.2 hresult)

/-! ## Rules of a configuration -/

/-- The faults in which the diagnosis of a site ends. Without a root directory no file is asked for.
-/
inductive DiagnosisMeets (s : Surroundings) (site : Site) : Fault → Prop
  /-- The root directory cannot be looked at. -/
  | root {f : Fault} (failing : s.storage site.root = .failing f) : DiagnosisMeets s site f
  /-- The path of the file leads nowhere. -/
  | path {f : Fault} (directory : s.storage site.root = .directory)
    (fails : site.config = .error f) : DiagnosisMeets s site f
  /-- What stands where the file should be cannot be diagnosed. -/
  | file {named : Option Location} {f : Fault} (directory : s.storage site.root = .directory)
    (located : site.config = .ok named)
    (undiagnosable : (s.storage (configLocation site.root named)).Undiagnosable
      (configLocation site.root named).text f) : DiagnosisMeets s site f

/-- A diagnosis asks for the file of the site in a root directory, and for none without one. -/
theorem askedFor_of_directory (hroot : s.storage site.root = .directory) :
    s.askedFor site = site.config :=
  if_pos (by rw [hroot]; rfl)

theorem askedFor_of_ne_directory (hroot : s.storage site.root ≠ .directory) :
    s.askedFor site = .ok none := by
  refine if_neg ?_
  unfold Entry.isDirectory
  split
  · next h => exact absurd h hroot
  · exact Bool.false_ne_true

/-- A preflight ends in the faults of the root directory and, behind it, of the file. -/
theorem preflight_eq_error_iff {storage : Storage} {root : Location} {named : Option Location} :
    preflight storage root named = .error f ↔ storage root = .failing f ∨
      storage root = .directory ∧
        (storage (configLocation root named)).Undiagnosable (configLocation root named).text f := by
  unfold preflight
  split
  · next hroot => simp [hroot, map_eq_error_iff, diagnose_eq_error_iff]
  · next g hroot => simp [hroot]
  · next hroot hfailing =>
    refine ⟨nofun, ?_⟩
    rintro (h | ⟨h, -⟩)
    · exact absurd h (hfailing f)
    · exact absurd h hroot

/-- The diagnosis of a site ends in the faults of its paths and of what stands there. -/
theorem diagnostics_eq_error_iff : s.diagnostics site = .error f ↔ s.DiagnosisMeets site f := by
  unfold diagnostics
  simp only [bind_eq_error_iff, preflight_eq_error_iff]
  constructor
  · -- the path is resolved only below a root that is a directory
    rintro (h | ⟨named, h, failing | ⟨directory, undiagnosable⟩⟩)
    · by_cases directory : s.storage site.root = .directory
      · rw [askedFor_of_directory directory] at h
        exact .path directory h
      · rw [askedFor_of_ne_directory directory] at h
        cases h
    · exact .root failing
    · rw [askedFor_of_directory directory] at h
      exact .file directory h undiagnosable
  · intro h
    cases h with
    | root failing =>
      have hne : s.storage site.root ≠ .directory := by
        rw [failing]
        exact nofun
      exact .inr ⟨none, askedFor_of_ne_directory hne, .inl failing⟩
    | path directory fails => exact .inl ((askedFor_of_directory directory).trans fails)
    | file directory located undiagnosable =>
      exact .inr ⟨_, (askedFor_of_directory directory).trans located,
        .inr ⟨directory, undiagnosable⟩⟩

/-- The faults in which the evaluation of rules of a configuration ends. -/
inductive CheckMeets (s : Surroundings) (site : Site) (names : List String) : Fault → Prop
  /-- The configuration cannot be diagnosed. -/
  | diagnosis {f : Fault} (diagnosed : s.DiagnosisMeets site f) : CheckMeets s site names f
  /-- It cannot be loaded, though there is nothing to report on it. -/
  | loading {f : Fault} (clean : s.diagnostics site = .ok [])
    (unloadable : s.LoadMeets site f) : CheckMeets s site names f
  /-- A rule ends in the fault, after rules that have answers. -/
  | rule {c : Config} {rules : Table String} {f : Fault} (clean : s.diagnostics site = .ok [])
    (loaded : (s.load site).result = .ok c) (selected : selectRules c names = .ok rules)
    (fails : (s.evaluator c .empty).FailsAt (.fault f) rules.entries s.bits) :
    CheckMeets s site names f

theorem reportReply_eq_error_iff {json : Bool} {today : Date}
    {results : Except (Failure ClauseError) (List RuleResult)} :
    reportReply json today results = .error f ↔ results = .error (.fault f) := by
  cases results with
  | ok rs => exact ⟨nofun, nofun⟩
  | error e =>
    rw [Except.error.injEq]
    exact reply_eq_error_iff

/-- The evaluation of rules of a configuration ends in the faults of its layers and in no others. -/
theorem runCheck_eq_error_iff {json verbose : Bool} :
    s.runCheck site names json verbose = .error f ↔ s.CheckMeets site names f := by
  unfold runCheck
  rw [bind_eq_error_iff, diagnostics_eq_error_iff]
  constructor
  · -- only a clean diagnosis lets the command go on to load
    rintro (diagnosed | ⟨ds, clean, h⟩)
    · exact .diagnosis diagnosed
    · split at h
      · -- what there is to report ends the command with a code
        cases h
      · next hds =>
        have hnil : ds = [] := by simpa using hds
        subst hnil
        dsimp only at h
        split at h
        · next e hload =>
          rw [map_eq_error_iff, reply_eq_error_iff] at h
          subst h
          exact .loading clean (load_eq_fault_iff.1 hload)
        · next c hload =>
          split at h
          · cases h
          · next rules selected =>
            rw [map_eq_error_iff, reportReply_eq_error_iff,
              Evaluator.evaluateRules_eq_error_iff] at h
            exact .rule clean hload selected h
  · intro h
    cases h with
    | diagnosis diagnosed => exact .inl diagnosed
    | loading clean unloadable =>
      refine .inr ⟨[], clean, ?_⟩
      have hload : (s.load site).result = .error (.fault f) :=
        load_eq_fault_iff.2 unloadable
      rw [if_neg (by simp)]
      dsimp only
      rw [hload]
      rfl
    | rule clean loaded selected fails =>
      refine .inr ⟨[], clean, ?_⟩
      have hresult := Evaluator.evaluateRules_eq_error_iff.2 fails
      rw [if_neg (by simp)]
      dsimp only
      rw [loaded]
      dsimp only
      rw [selected]
      exact map_eq_error_iff.2 (reportReply_eq_error_iff.2 hresult)

theorem runValidate_eq_error_iff : s.runValidate site = .error f ↔ s.DiagnosisMeets site f := by
  unfold runValidate
  rw [bind_eq_error_iff, diagnostics_eq_error_iff]
  refine or_iff_left ?_
  rintro ⟨ds, -, h⟩
  split at h <;> cases h

end Surroundings

/-! ## Requests -/

/-- The faults in which a request ends. -/
inductive Request.Meets (s : Surroundings) : Request → Fault → Prop
  /-- The option for the root directory has lost its value. -/
  | place {r : Request} (lost : r.place.root = none) : Request.Meets s r .missingPath
  /-- The path of the root directory leads nowhere. -/
  | root {r : Request} {path : String} {f : Fault} (given : r.place.root = some path)
    (fails : s.resolve path = .error f) : Request.Meets s r f
  /-- One rule is evaluated. -/
  | eval {place : Place} {site : Site} {rule : String} {data settings : List (Option String)}
    {date : Option (Option String)} {verbose : Bool} {f : Fault}
    (located : place.site s.resolve = .ok site)
    (meets : s.EvalMeets site rule data settings date f) :
    Request.Meets s (.eval place rule data settings date verbose) f
  /-- Rules of a configuration are evaluated. -/
  | check {place : Place} {site : Site} {names : List String} {json verbose : Bool} {f : Fault}
    (located : place.site s.resolve = .ok site) (meets : s.CheckMeets site names f) :
    Request.Meets s (.check place names json verbose) f
  /-- A configuration is diagnosed. -/
  | validate {place : Place} {site : Site} {f : Fault}
    (located : place.site s.resolve = .ok site) (meets : s.DiagnosisMeets site f) :
    Request.Meets s (.validate place) f

/-- A place is nowhere if it has no root directory, or the path of that leads nowhere. -/
theorem Place.site_eq_error_iff {place : Place} {resolve : String → Except Fault Location} :
    place.site resolve = .error f ↔ f = .missingPath ∧ place.root = none ∨
      ∃ path, place.root = some path ∧ resolve path = .error f := by
  unfold Place.site
  split
  · next lost => simp [lost, eq_comm]
  · next path hpath => simp [hpath, map_eq_error_iff]

/-- A request ends in the faults of its place and of its command, and in no others. -/
theorem runRequest_eq_error_iff {s : Surroundings} {r : Request} :
    s.runRequest r = .error f ↔ r.Meets s f := by
  unfold Surroundings.runRequest
  rw [bind_eq_error_iff, Place.site_eq_error_iff]
  constructor
  · -- the place is resolved before the command is run
    rintro ((⟨rfl, lost⟩ | ⟨path, given, fails⟩) | ⟨site, located, h⟩)
    · exact .place lost
    · exact .root given fails
    · cases r with
      | eval place rule data settings date verbose =>
        exact .eval located (Surroundings.runEval_eq_error_iff.1 h)
      | check place names json verbose =>
        exact .check located (Surroundings.runCheck_eq_error_iff.1 h)
      | validate place => exact .validate located (Surroundings.runValidate_eq_error_iff.1 h)
  · intro h
    cases h with
    | place lost => exact .inl (.inl ⟨rfl, lost⟩)
    | root given fails => exact .inl (.inr ⟨_, given, fails⟩)
    | eval located meets => exact .inr ⟨_, located, Surroundings.runEval_eq_error_iff.2 meets⟩
    | check located meets => exact .inr ⟨_, located, Surroundings.runCheck_eq_error_iff.2 meets⟩
    | validate located meets =>
      exact .inr ⟨_, located, Surroundings.runValidate_eq_error_iff.2 meets⟩

end Verdict.Command
