import Verdict.Proofs.Command.Selection
import Verdict.Proofs.Evaluator.Chance
import Verdict.Proofs.Report.Reading
/-!
# Checking rules

A check reports on all the rules that are asked for, or it is refused and reports on none. `Checked`
lists the ways in which it ends with a code, and everything else is read off them: what a refusal is
due to, which rules are evaluated, and what the code says of them (`AllOrNothing`).

The diagnosis that comes first leaves few refusals for later. A configuration without defects is
loaded, and none of its rules fails for a name that no predicate has; so what can be left is a name
that no rule has, and a clause that fails for another cause.
-/

namespace Verdict.Command

namespace Surroundings

variable {s : Surroundings} {site : Site} {names : List String} {json verbose : Bool}
  {c : Completion}

/-! ## Configurations without defects -/

/-- A configuration without defects has a file, or does without, and nothing is found in it. -/
theorem diagnose_of_clean (clean : s.diagnostics site = .ok []) :
    ∃ named, site.config = .ok named ∧
      diagnose s.storage site.root named named.isSome = .ok [] := by
  obtain ⟨named, hasked, hpreflight⟩ := bind_eq_ok_iff.1 clean
  by_cases hroot : s.storage site.root = .directory
  · rw [preflight_of_directory hroot] at hpreflight
    exact ⟨named, (askedFor_of_directory hroot).symm.trans hasked, hpreflight⟩
  · -- without a root directory there is something to report
    cases eq_of_preflight_of_ne_directory hroot hpreflight

/-- Lint has nothing to say of the rules of a configuration without defects. -/
theorem lint_of_diagnostics {config : Config} {name rule : String}
    (clean : s.diagnostics site = .ok []) (loaded : (s.load site).result = .ok config)
    (configured : config.rules.find? name = some rule) : lint rule = [] := by
  obtain ⟨named, located, hdiagnose⟩ := diagnose_of_clean clean
  rw [load_of_located located] at loaded
  exact lint_of_loadConfig hdiagnose loaded configured

/-! ## How a check ends -/

/-- How a check ends with a code. -/
inductive Checked (s : Surroundings) (site : Site) (names : List String) (json verbose : Bool) :
    Completion → Prop
  /-- The configuration has defects. -/
  | defective {ds : List Diagnostic} (diagnosed : s.diagnostics site = .ok ds) (found : ds ≠ []) :
    Checked s site names json verbose (defects ds)
  /-- A name is that of no rule. -/
  | unknown {config : Config} {name : String} (clean : s.diagnostics site = .ok [])
    (loaded : (s.load site).result = .ok config)
    (first : names.find? (· ∉ config.rules.keys) = some name) :
    Checked s site names json verbose (completion verbose (s.load site).log
      (configRefusal (.unknownRule name (sortTexts config.rules.keys))))
  /-- A rule fails. -/
  | undecided {config : Config} {rules : Table String} {e : ClauseError}
    (clean : s.diagnostics site = .ok []) (loaded : (s.load site).result = .ok config)
    (selected : selectRules config names = .ok rules)
    (failed : ((s.evaluator config .empty).evaluateRules rules.entries s.bits).result =
      .error (.declared e)) :
    Checked s site names json verbose (completion verbose
      ((s.load site).log ++ ((s.evaluator config .empty).evaluateRules rules.entries s.bits).log)
      (clauseRefusal e))
  /-- All rules have answers. -/
  | answered {config : Config} {rules : Table String} {rs : List RuleResult}
    (clean : s.diagnostics site = .ok []) (loaded : (s.load site).result = .ok config)
    (selected : selectRules config names = .ok rules)
    (results : ((s.evaluator config .empty).evaluateRules rules.entries s.bits).result = .ok rs) :
    Checked s site names json verbose (completion verbose
      ((s.load site).log ++ ((s.evaluator config .empty).evaluateRules rules.entries s.bits).log)
      (.answer (if allHold rs then 0 else 1)
        (if json then Report.json (s.evaluator config .empty).today rs else Report.text rs)))

/-- A check of a configuration without defects comes to its rules. -/
theorem runCheck_of_clean (clean : s.diagnostics site = .ok []) {config : Config}
    (loaded : (s.load site).result = .ok config) :
    s.runCheck site names json verbose =
      match selectRules config names with
      | .error e => .ok (completion verbose (s.load site).log (configRefusal e))
      | .ok rules =>
        let o := (s.evaluator config .empty).evaluateRules rules.entries s.bits
        (reportReply json (s.evaluator config .empty).today o.result).map
          (completion verbose ((s.load site).log ++ o.log)) := by
  unfold runCheck
  rw [clean]
  simp only [bind, Except.bind, List.isEmpty_nil, Bool.not_true, Bool.false_eq_true, if_false,
    loaded]
  rfl

/-- A check has a completion exactly in the ways of `Checked`. -/
theorem runCheck_eq_ok_iff :
    s.runCheck site names json verbose = .ok c ↔ s.Checked site names json verbose c := by
  constructor
  · intro h
    obtain ⟨ds, diagnosed, -⟩ := bind_eq_ok_iff.1 h
    cases ds with
    | cons d ds =>
      obtain ⟨ds', diagnosed', h⟩ := bind_eq_ok_iff.1 h
      cases diagnosed.symm.trans diagnosed'
      cases h
      exact .defective diagnosed (List.cons_ne_nil d ds)
    | nil =>
      cases loaded : (s.load site).result with
      | error e =>
        unfold runCheck at h
        rw [diagnosed] at h
        simp only [bind, Except.bind, List.isEmpty_nil, Bool.not_true, Bool.false_eq_true,
          if_false, loaded] at h
        -- a configuration that is refused with a message has defects
        obtain ⟨⟨e', rfl⟩, -⟩ := refused_of_reply configRefusal_eq h
        exact absurd rfl (diagnostics_ne_nil diagnosed loaded)
      | ok config =>
        rw [runCheck_of_clean diagnosed loaded] at h
        cases selected : selectRules config names with
        | error e =>
          rw [selected] at h
          cases h
          obtain ⟨name, first, rfl⟩ := selectRules_eq_error_iff.1 selected
          exact .unknown diagnosed loaded first
        | ok rules =>
          rw [selected] at h
          dsimp only at h
          cases results :
            ((s.evaluator config .empty).evaluateRules rules.entries s.bits).result with
          | ok rs =>
            rw [results] at h
            cases h
            exact .answered diagnosed loaded selected results
          | error e =>
            rw [results] at h
            cases e with
            | fault f => cases h
            | declared e =>
              cases h
              exact .undecided diagnosed loaded selected results
  · intro h
    cases h with
    | @defective ds diagnosed found =>
      refine bind_eq_ok_iff.2 ⟨ds, diagnosed, ?_⟩
      cases ds with
      | nil => exact absurd rfl found
      | cons d ds => rfl
    | unknown clean loaded first =>
      rw [runCheck_of_clean clean loaded, selectRules_eq_error_iff.2 ⟨_, first, rfl⟩]
    | undecided clean loaded selected failed =>
      rw [runCheck_of_clean clean loaded, selected]
      dsimp only
      rw [failed]
      rfl
    | answered clean loaded selected results =>
      rw [runCheck_of_clean clean loaded, selected]
      dsimp only
      rw [results]
      rfl

/-! ## What is evaluated -/

/-- The rules that a check evaluates. There are none unless the configuration is without defects and
has all that are asked for. -/
def evaluated (s : Surroundings) (site : Site) (names : List String) : List Evaluation :=
  match s.diagnostics site, (s.load site).result with
  | .ok [], .ok config =>
    match selectRules config names with
    | .ok rules => (s.evaluator config .empty).evaluations rules.entries s.bits
    | .error _ => []
  | _, _ => []

section Evaluated

variable {config : Config} {rules : Table String} {v : Evaluation}

theorem evaluated_of_selected (clean : s.diagnostics site = .ok [])
    (loaded : (s.load site).result = .ok config) (selected : selectRules config names = .ok rules) :
    s.evaluated site names = (s.evaluator config .empty).evaluations rules.entries s.bits := by
  unfold evaluated
  rw [clean, loaded]
  dsimp only
  rw [selected]

/-- Without a configuration that has no defects and all the names, nothing is evaluated. -/
theorem evaluated_eq_nil_or (s : Surroundings) (site : Site) (names : List String) :
    s.evaluated site names = [] ∨ ∃ config rules, s.diagnostics site = .ok [] ∧
      (s.load site).result = .ok config ∧ selectRules config names = .ok rules := by
  unfold evaluated
  split
  · next config clean loaded =>
    cases selected : selectRules config names with
    | ok rules => exact .inr ⟨config, rules, clean, loaded, selected⟩
    | error e => exact .inl rfl
  · exact .inl rfl

/-- What is evaluated is asked for and configured, and comes in the order asked for. -/
theorem evaluated_prefix_requested (loaded : (s.load site).result = .ok config) :
    (s.evaluated site names).map Evaluation.name <+: config.requested names ∧
      ∀ v ∈ s.evaluated site names, config.rules.find? v.name = some v.rule := by
  rcases s.evaluated_eq_nil_or site names with hnil | ⟨config', rules, clean, loaded', selected⟩
  · rw [hnil]
    exact ⟨List.nil_prefix, List.forall_mem_nil _⟩
  · cases loaded.symm.trans loaded'
    obtain ⟨hkeys, hentries⟩ := of_selectRules selected
    have hfirst := (s.evaluator config .empty).evaluations_prefix_rules rules.entries s.bits
    rw [evaluated_of_selected clean loaded selected]
    constructor
    · have hnames := hfirst.map Prod.fst
      rw [List.map_map] at hnames
      rw [← hkeys]
      exact hnames
    · exact fun v hv => hentries _ (hfirst.subset (List.mem_map_of_mem hv))

/-- With a name that no rule has, nothing is evaluated. -/
theorem evaluated_of_unknown (loaded : (s.load site).result = .ok config) {name : String}
    (asked : name ∈ names) (unknown : name ∉ config.rules.keys) : s.evaluated site names = [] := by
  refine (s.evaluated_eq_nil_or site names).resolve_right ?_
  rintro ⟨config', rules, clean, loaded', selected⟩
  cases loaded.symm.trans loaded'
  cases hfirst : names.find? (· ∉ config.rules.keys) with
  | none => exact absurd unknown (by simpa using List.find?_eq_none.1 hfirst name asked)
  | some first => cases selected.symm.trans (selectRules_eq_error_iff.2 ⟨first, hfirst, rfl⟩)

/-- A rule that is evaluated never fails for a name that no predicate has. -/
theorem cause_of_mem_evaluated {e : ClauseError} (evaluated : v ∈ s.evaluated site names)
    (failed : v.outcome.result = .error (.declared e)) (name : String) :
    e.cause ≠ .unknownName name := by
  rcases s.evaluated_eq_nil_or site names with hnil | ⟨config, rules, clean, loaded, selected⟩
  · rw [hnil] at evaluated
    exact absurd evaluated List.not_mem_nil
  · have hconfigured := (evaluated_prefix_requested loaded).2 v evaluated
    rw [evaluated_of_selected clean loaded selected] at evaluated
    obtain ⟨rest, houtcome⟩ := Evaluator.outcome_of_mem_evaluations evaluated
    rw [houtcome] at failed
    exact cause_of_lint_eq_nil (lint_of_diagnostics clean loaded hconfigured) failed name

end Evaluated

/-! ## What a check is refused for -/

/-- Why a check is refused, and the line that says so. -/
inductive CheckRefused (s : Surroundings) (site : Site) (names : List String) : String → Prop
  /-- The configuration has defects. -/
  | defective {ds : List Diagnostic} (diagnosed : s.diagnostics site = .ok ds) (found : ds ≠ []) :
    CheckRefused s site names (Diagnostic.format ds)
  /-- A name is that of no rule; the first such name is reported. -/
  | unknown {config : Config} {name : String} (clean : s.diagnostics site = .ok [])
    (loaded : (s.load site).result = .ok config)
    (first : names.find? (· ∉ config.rules.keys) = some name) :
    CheckRefused s site names ("Configuration error: " ++
      (ConfigError.unknownRule name (sortTexts config.rules.keys)).message)
  /-- A rule that is evaluated fails. -/
  | undecided {v : Evaluation} {e : ClauseError} (evaluated : v ∈ s.evaluated site names)
    (failed : v.outcome.result = .error (.declared e)) :
    CheckRefused s site names ("Evaluation error: " ++ e.message)

/-- A check with results is not refused. -/
theorem not_checkRefused {config : Config} {rules : Table String} {rs : List RuleResult}
    (clean : s.diagnostics site = .ok []) (loaded : (s.load site).result = .ok config)
    (selected : selectRules config names = .ok rules)
    (results : ((s.evaluator config .empty).evaluateRules rules.entries s.bits).result = .ok rs)
    (line : String) : ¬ s.CheckRefused site names line := by
  rintro (⟨diagnosed, found⟩ | ⟨-, loaded', first⟩ | ⟨evaluated, failed⟩)
  · cases clean.symm.trans diagnosed
    exact found rfl
  · cases loaded.symm.trans loaded'
    cases selected.symm.trans (selectRules_eq_error_iff.2 ⟨_, first, rfl⟩)
  · rw [evaluated_of_selected clean loaded selected] at evaluated
    cases results.symm.trans (Evaluator.exists_failed_iff.1 ⟨_, evaluated, failed⟩)

/-- A check is refused with a line, or has results. -/
theorem Checked.refused_or_answered (h : s.Checked site names json verbose c) :
    (∃ line log, s.CheckRefused site names line ∧ c = completion verbose log (.refusal line)) ∨
      ∃ config rules rs, s.diagnostics site = .ok [] ∧ (s.load site).result = .ok config ∧
        selectRules config names = .ok rules ∧
        ((s.evaluator config .empty).evaluateRules rules.entries s.bits).result = .ok rs ∧
        c.exit = (if allHold rs then 0 else 1) ∧
        c.output = (if json then Report.json (s.evaluator config .empty).today rs
          else Report.text rs) ++ "\n" := by
  cases h with
  | @defective ds diagnosed found =>
    -- what was found goes to the error output without a log
    have hlog : defects ds = completion verbose [] (.refusal (Diagnostic.format ds)) := by
      cases verbose <;> simp [defects, completion]
    exact .inl ⟨_, [], .defective diagnosed found, hlog⟩
  | unknown clean loaded first => exact .inl ⟨_, _, .unknown clean loaded first, rfl⟩
  | undecided clean loaded selected failed =>
    obtain ⟨v, hv, hfailed⟩ := Evaluator.exists_failed_iff.2 failed
    rw [← evaluated_of_selected clean loaded selected] at hv
    exact .inl ⟨_, _, .undecided hv hfailed, rfl⟩
  | answered clean loaded selected results =>
    exact .inr ⟨_, _, _, clean, loaded, selected, results, rfl, rfl⟩

/-- Where the configuration has no defects, a refusal is due to a name that no rule has, or to a
clause that fails though its predicate is known. -/
theorem CheckRefused.cause {line : String} (refused : s.CheckRefused site names line)
    (clean : s.diagnostics site = .ok []) :
    (∃ config name, (s.load site).result = .ok config ∧
      names.find? (· ∉ config.rules.keys) = some name ∧ line = "Configuration error: " ++
        (ConfigError.unknownRule name (sortTexts config.rules.keys)).message) ∨
    ∃ v e, v ∈ s.evaluated site names ∧ v.outcome.result = .error (.declared e) ∧
      line = "Evaluation error: " ++ e.message ∧ ∀ name, e.cause ≠ .unknownName name := by
  cases refused with
  | defective diagnosed found =>
    cases clean.symm.trans diagnosed
    exact absurd rfl found
  | @unknown config name _ loaded first => exact .inl ⟨config, name, loaded, first, rfl⟩
  | @undecided v e evaluated failed =>
    exact .inr ⟨v, e, evaluated, failed, rfl, cause_of_mem_evaluated evaluated failed⟩

/-- Rules that are selected and use no chance are evaluated alike from all sources of bits. -/
theorem evaluateRules_of_chanceless {config : Config} {rules : Table String}
    (chanceless : ∀ config, (s.load site).result = .ok config → ∀ name ∈ config.requested names,
      ∀ rule, config.rules.find? name = some rule → ¬ UsesChance rule)
    (loaded : (s.load site).result = .ok config) (selected : selectRules config names = .ok rules)
    (E : Evaluator) (bits bits' : Bits) :
    E.evaluateRules rules.entries bits = E.evaluateRules rules.entries bits' := by
  obtain ⟨hkeys, hentries⟩ := of_selectRules selected
  refine Evaluator.evaluateRules_of_not_usesChance (fun entry hentry => ?_) bits bits'
  have hname : entry.1 ∈ config.requested names := hkeys ▸ List.mem_map_of_mem hentry
  exact chanceless config loaded _ hname _ (hentries entry hentry)

/-- Where no rule that is asked for uses chance, neither the format of the report nor the source of
bits makes a difference to the code and to the error output. -/
theorem Checked.change (h : s.Checked site names json verbose c)
    (chanceless : ∀ config, (s.load site).result = .ok config → ∀ name ∈ config.requested names,
      ∀ rule, config.rules.find? name = some rule → ¬ UsesChance rule)
    (json' : Bool) (bits' : Bits) :
    ∃ c', Checked { s with bits := bits' } site names json' verbose c' ∧ c'.exit = c.exit ∧
      c'.errors = c.errors := by
  let s' : Surroundings := { s with bits := bits' }
  have hrules {config : Config} {rules : Table String} (loaded : (s.load site).result = .ok config)
      (selected : selectRules config names = .ok rules) :
      (s'.evaluator config .empty).evaluateRules rules.entries s'.bits =
        (s.evaluator config .empty).evaluateRules rules.entries s.bits :=
    evaluateRules_of_chanceless chanceless loaded selected _ _ _
  have hload : s'.load site = s.load site := rfl
  -- only the rules are evaluated with draws, and these use none
  cases h with
  | defective diagnosed found => exact ⟨_, .defective diagnosed found, rfl, rfl⟩
  | unknown clean loaded first => exact ⟨_, .unknown clean loaded first, rfl, rfl⟩
  | undecided clean loaded selected failed =>
    have heq := hrules loaded selected
    refine ⟨_, Checked.undecided (s := s') clean loaded selected ((congrArg _ heq).trans failed),
      rfl, ?_⟩
    rw [heq, hload]
  | answered clean loaded selected results =>
    have heq := hrules loaded selected
    refine ⟨_, Checked.answered (s := s') clean loaded selected ((congrArg _ heq).trans results),
      rfl, ?_⟩
    rw [heq, hload]
    rfl

/-! ## All or nothing -/

/-- What is to be said of a check that ended with a code: it reports on all rules that are asked
for, or is refused and reports on none. -/
structure AllOrNothing (s : Surroundings) (site : Site) (names : List String) (json verbose : Bool)
    (c : Completion) : Prop where
  /-- It has the code 2 exactly if there is a reason to refuse it. -/
  refused_iff : c.exit = 2 ↔ ∃ line, s.CheckRefused site names line
  /-- Then there is nothing on the standard output, and the reason ends the error output. -/
  refusal (refused : c.exit = 2) : c.output = "" ∧
    ∃ line log, s.CheckRefused site names line ∧ c = completion verbose log (.refusal line)
  /-- A configuration without defects is loaded. -/
  loads (clean : s.diagnostics site = .ok []) : ∃ config, (s.load site).result = .ok config
  /-- Its rules are in the order of the file. -/
  file_order {config : Config} {named : Option Location} {entries : List (Value × Value)}
    (loaded : (s.load site).result = .ok config) (located : site.config = .ok named)
    (file : s.storage (configLocation site.root named) = .file (.ok (.map entries))) :
    config.rules.keys = ruleNames entries
  /-- If no rule has one of the names, no rule is evaluated. -/
  nothing {config : Config} {name : String} (loaded : (s.load site).result = .ok config)
    (asked : name ∈ names) (unknown : name ∉ config.rules.keys) : s.evaluated site names = []
  /-- What is evaluated comes in the order asked for, each rule once. -/
  order {config : Config} (loaded : (s.load site).result = .ok config) :
    (s.evaluated site names).map Evaluation.name <+: config.requested names
  /-- What is evaluated under a name is the rule that is configured. -/
  configured {config : Config} {v : Evaluation} (loaded : (s.load site).result = .ok config)
    (evaluated : v ∈ s.evaluated site names) : config.rules.find? v.name = some v.rule
  /-- Without a refusal, all that is asked for is evaluated. -/
  complete {config : Config} (loaded : (s.load site).result = .ok config) (reported : c.exit ≠ 2) :
    (s.evaluated site names).map Evaluation.name = config.requested names
  /-- Without a refusal, the report is on the results of the evaluations. -/
  report (reported : c.exit ≠ 2) : ∃ config rs, (s.load site).result = .ok config ∧
    (s.evaluated site names).map Evaluation.result? = rs.map some ∧
    c.output = (if json then Report.json (s.evaluator config .empty).today rs
      else Report.text rs) ++ "\n"
  /-- It has the code 0 exactly if every rule holds. -/
  holds : c.exit = 0 ↔ c.exit ≠ 2 ∧ ∀ v ∈ s.evaluated site names, v.outcome.result = .ok true
  /-- It has the code 1 exactly if every rule has an answer and some rule does not hold. -/
  fails : c.exit = 1 ↔ c.exit ≠ 2 ∧
    (∀ v ∈ s.evaluated site names, ∃ b, v.outcome.result = .ok b) ∧
    ∃ v ∈ s.evaluated site names, v.outcome.result = .ok false
  /-- A JSON report says that it is passed exactly with the code 0. -/
  passed (asked : json = true) (reported : c.exit ≠ 2) :
    ∃ doc, Json.read? c.output = some doc ∧ doc.find? "passed" = some (.bool (c.exit = 0))
  /-- Without defects, it is refused for an unknown name of a rule alone, or for a clause, and then
  not for the name of a predicate. -/
  cause {line : String} (clean : s.diagnostics site = .ok [])
    (refused : s.CheckRefused site names line) :
    (∃ config name, (s.load site).result = .ok config ∧
      names.find? (· ∉ config.rules.keys) = some name ∧ line = "Configuration error: " ++
        (ConfigError.unknownRule name (sortTexts config.rules.keys)).message) ∨
    ∃ v e, v ∈ s.evaluated site names ∧ v.outcome.result = .error (.declared e) ∧
      line = "Evaluation error: " ++ e.message ∧ ∀ name, e.cause ≠ .unknownName name
  /-- For rules that use no chance, the format changes neither the code nor the error output. -/
  format (chanceless : ∀ config, (s.load site).result = .ok config →
      ∀ name ∈ config.requested names, ∀ rule, config.rules.find? name = some rule →
        ¬ UsesChance rule) (json' : Bool) (bits' : Bits) :
    ∃ c', Surroundings.runCheck { s with bits := bits' } site names json' verbose = .ok c' ∧
      c'.exit = c.exit ∧ c'.errors = c.errors

/-- A configuration that was checked is loaded if it has no defects. -/
theorem Checked.loads (h : s.Checked site names json verbose c)
    (clean : s.diagnostics site = .ok []) : ∃ config, (s.load site).result = .ok config := by
  cases h with
  | defective diagnosed found =>
    cases clean.symm.trans diagnosed
    exact absurd rfl found
  | unknown _ loaded _ => exact ⟨_, loaded⟩
  | undecided _ loaded _ _ => exact ⟨_, loaded⟩
  | answered _ loaded _ _ => exact ⟨_, loaded⟩

theorem Checked.refused_of_exit (h : s.Checked site names json verbose c) (hexit : c.exit = 2) :
    ∃ line log, s.CheckRefused site names line ∧ c = completion verbose log (.refusal line) := by
  refine h.refused_or_answered.resolve_right ?_
  rintro ⟨config, rules, rs, -, -, -, -, hexit', -⟩
  rw [hexit'] at hexit
  split at hexit <;> cases hexit

/-- A check that is not refused reports on all the rules that are asked for. -/
theorem Checked.reported_of_exit (h : s.Checked site names json verbose c) (hexit : c.exit ≠ 2) :
    (∀ line, ¬ s.CheckRefused site names line) ∧
    ∃ config rs, (s.load site).result = .ok config ∧
      (s.evaluated site names).map Evaluation.name = config.requested names ∧
      (s.evaluated site names).map Evaluation.result? = rs.map some ∧
      (allHold rs = true ↔ ∀ v ∈ s.evaluated site names, v.outcome.result = .ok true) ∧
      c.exit = (if allHold rs then 0 else 1) ∧
      c.output = (if json then Report.json (s.evaluator config .empty).today rs
        else Report.text rs) ++ "\n" := by
  rcases h.refused_or_answered with ⟨line, log, -, rfl⟩ | answered
  · exact absurd rfl hexit
  · obtain ⟨config, rules, rs, clean, loaded, selected, results, hcode, houtput⟩ := answered
    refine ⟨not_checkRefused clean loaded selected results, config, rs, loaded, ?_⟩
    have hresults := Evaluator.evaluateRules_eq_ok_iff.1 results
    rw [evaluated_of_selected clean loaded selected]
    refine ⟨?_, hresults, Evaluation.allHold_iff hresults, hcode, houtput⟩
    have hentries := congrArg (List.map Prod.fst) (Evaluator.entries_of_evaluateRules results)
    rw [List.map_map] at hentries
    exact hentries.trans (of_selectRules selected).1

/-- However a check ends with a code, all that is to be said of it holds. -/
theorem Checked.allOrNothing (h : s.Checked site names json verbose c) :
    s.AllOrNothing site names json verbose c where
  -- A command that does not end with 2 has reported on all that it was asked for, so each field
  -- follows from one of the two forms of a completion.
  refused_iff := by
    refine ⟨fun hexit => ?_, fun ⟨line, refused⟩ => ?_⟩
    · obtain ⟨line, log, refused, -⟩ := h.refused_of_exit hexit
      exact ⟨line, refused⟩
    · exact Decidable.byContradiction fun hexit => (h.reported_of_exit hexit).1 line refused
  refusal hexit := by
    obtain ⟨line, log, refused, rfl⟩ := h.refused_of_exit hexit
    exact ⟨rfl, line, log, refused, rfl⟩
  loads := h.loads
  file_order loaded located file := by
    rw [load_of_located located] at loaded
    exact keys_of_loadConfig loaded file
  nothing loaded asked := evaluated_of_unknown loaded asked
  order loaded := (evaluated_prefix_requested loaded).1
  configured loaded := (evaluated_prefix_requested loaded).2 _
  complete loaded hexit := by
    obtain ⟨-, config, rs, loaded', hnames, -⟩ := h.reported_of_exit hexit
    cases loaded.symm.trans loaded'
    exact hnames
  report hexit := by
    obtain ⟨-, config, rs, loaded, -, hresults, -, -, houtput⟩ := h.reported_of_exit hexit
    exact ⟨config, rs, loaded, hresults, houtput⟩
  holds := by
    by_cases hexit : c.exit = 2
    · simp [hexit]
    · obtain ⟨-, config, rs, -, -, -, hall, hcode, -⟩ := h.reported_of_exit hexit
      rw [and_iff_right hexit, ← hall, hcode]
      cases allHold rs <;> simp
  fails := by
    by_cases hexit : c.exit = 2
    · simp [hexit]
    · obtain ⟨-, config, rs, -, -, hresults, hall, hcode, -⟩ := h.reported_of_exit hexit
      have hanswered : ∀ v ∈ s.evaluated site names, ∃ b, v.outcome.result = .ok b := by
        intro v hv
        obtain ⟨r, -, hr⟩ := Evaluation.exists_of_mem hresults hv
        exact ⟨r.holds, (Evaluation.result?_eq_some_iff.1 hr).1⟩
      rw [and_iff_right hexit, and_iff_right hanswered, hcode]
      cases hholds : allHold rs with
      | true =>
        refine iff_of_false (by simp) fun ⟨v, hv, hfalse⟩ => ?_
        cases (hall.1 hholds v hv).symm.trans hfalse
      | false =>
        refine iff_of_true (by simp) (Decidable.byContradiction fun hnone => ?_)
        have htrue : ∀ v ∈ s.evaluated site names, v.outcome.result = .ok true := by
          intro v hv
          obtain ⟨b, hb⟩ := hanswered v hv
          cases b with
          | true => exact hb
          | false => exact absurd ⟨v, hv, hb⟩ hnone
        cases hholds.symm.trans (hall.2 htrue)
  passed asked hexit := by
    obtain ⟨-, config, rs, -, -, -, -, hcode, houtput⟩ := h.reported_of_exit hexit
    rw [houtput, if_pos asked, hcode]
    refine ⟨_, (Json.read?_render _).2, ?_⟩
    cases hall : allHold rs <;> simp [Report.document, Json.find?, hall]
  cause clean refused := refused.cause clean
  format chanceless json' bits' := by
    obtain ⟨c', hc', hexit, herrors⟩ := h.change chanceless json' bits'
    exact ⟨c', runCheck_eq_ok_iff.2 hc', hexit, herrors⟩

end Surroundings

/-- **A check is all or nothing.** Suppose that no fault ends a check. Then it reports on the rules
that are asked for, each once and in the order in which they first come, or on all in the order of
the file; or it is refused, and reports on none. The code and the report say the same of the rules
that were evaluated. A refusal has its reason in the defects of the configuration, in a name that no
rule has, or in a rule that fails; without defects, that is never for the name of a predicate. -/
theorem check_all_or_nothing {s : Surroundings} {place : Place} {names : List String}
    {json verbose : Bool} {c : Completion}
    (h : s.runRequest (.check place names json verbose) = .ok c) :
    ∃ site, place.site s.resolve = .ok site ∧ s.AllOrNothing site names json verbose c := by
  obtain ⟨site, located, h⟩ := bind_eq_ok_iff.1 h
  exact ⟨site, located, (Surroundings.runCheck_eq_ok_iff.1 h).allOrNothing⟩

/-- A name that comes again is evaluated once, and a rule that does not hold makes the code 1. -/
theorem check_all_or_nothing_repeated_name :
    let rules : Value := .map [(.text "b", .text "never"), (.text "a", .text "always")]
    let s : Surroundings := ⟨Location.top.seek, fun l => if l = .top then .directory else
      .file (.ok (.map [(.text "rules", rules)])), Yaml.reader, .empty, .first, fun _ => false⟩
    s.runRequest (.check ⟨some ".", none⟩ ["a", "b", "a"] false false) =
        .ok ⟨1, "a  true\nb  false\n", ""⟩ ∧
      ∃ site, (s.evaluated site ["a", "b", "a"]).map Evaluation.name = ["a", "b"] ∧
        ∃ v ∈ s.evaluated site ["a", "b", "a"], v.outcome.result = .ok false := by
  intro rules s
  have h : s.runRequest (.check ⟨some ".", none⟩ ["a", "b", "a"] false false) =
      .ok ⟨1, "a  true\nb  false\n", ""⟩ := by decide +kernel
  obtain ⟨site, located, hall⟩ := check_all_or_nothing h
  obtain ⟨config, rs, loaded, -⟩ := hall.report (by decide)
  exact ⟨h, site, hall.complete loaded (by decide), (hall.fails.1 rfl).2.2⟩

end Verdict.Command
