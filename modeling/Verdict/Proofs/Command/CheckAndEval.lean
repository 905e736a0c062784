import Verdict.Proofs.Command.Check
/-!
# Checking a rule and evaluating it

A rule of the configuration can be checked by its name or evaluated as it stands. The two commands
come to the evaluator on ways of their own, one by a diagnosis, the name and a row of rules, the
other by the layers of the arguments. Without arguments that add to the configuration they have the
same evaluator, so that a rule without chance ends in the same way with both.
-/

namespace Verdict.Command

namespace Surroundings

variable {s : Surroundings} {site : Site} {config : Config} {name rule : String}

/-- Without arguments the layers are those of the configuration. -/
theorem layered_nil (s : Surroundings) (config : Config) :
    s.layered config [] [] none = .ok (s.evaluator config .empty) := rfl

/-- Without arguments a rule is evaluated on the configuration as it is. -/
theorem runEval_of_loaded (loaded : (s.load site).result = .ok config) (rule : String)
    (verbose : Bool) :
    s.runEval site rule [] [] none verbose =
      let o := (s.evaluator config .empty).evaluate rule s.bits
      (ruleReply o.result).map (completion verbose ((s.load site).log ++ o.log)) := by
  unfold runEval
  dsimp only
  rw [loaded]
  dsimp only
  rw [layered_nil]

/-- One name selects its rule. -/
theorem selectRules_singleton (configured : config.rules.find? name = some rule) :
    selectRules config [name] = .ok (Table.empty.insert name rule) := by
  refine foldlM_rule_eq_ok_iff.2 ⟨[(name, rule)], rfl, ?_, rfl⟩
  exact List.forall_mem_singleton.2 configured

/-- A row of one rule ends as the rule does. -/
theorem evaluateRules_singleton (E : Evaluator) (bits : Bits) :
    E.evaluateRules [(name, rule)] bits =
      (E.evaluate rule bits).map fun b => [⟨name, rule, b⟩] := by
  rw [Evaluator.evaluateRules]
  cases hresult : (E.evaluate rule bits).result with
  | ok b =>
    rw [Outcome.andThen_of_ok _ hresult]
    simp [Evaluator.evaluateRules, Outcome.map, Outcome.pure, hresult, Except.map]
  | error e =>
    rw [Outcome.andThen_of_error _ hresult]
    simp [Outcome.map, hresult, Except.map]

/-- A check of one rule evaluates that rule and nothing else. -/
theorem runCheck_singleton (clean : s.diagnostics site = .ok [])
    (loaded : (s.load site).result = .ok config)
    (configured : config.rules.find? name = some rule) (json verbose : Bool) :
    s.runCheck site [name] json verbose =
      let o := (s.evaluator config .empty).evaluate rule s.bits
      (reportReply json (s.evaluator config .empty).today
        (o.result.map fun b => [⟨name, rule, b⟩])).map
          (completion verbose ((s.load site).log ++ o.log)) := by
  rw [runCheck_of_clean clean loaded, selectRules_singleton configured]
  dsimp only [Table.entries_insert, Table.entries_empty, putEntry]
  rw [evaluateRules_singleton]
  rfl

/-- The replies to the result of a rule, alone or in a report: the same fault, the same line of
errors, or answers with the same code. -/
theorem replies_agree (json : Bool) (today : Date) (name rule : String)
    (result : Except (Failure ClauseError) Bool) :
    let report := reportReply json today (result.map fun b => [⟨name, rule, b⟩])
    (∃ f, report = .error f ∧ ruleReply result = .error f) ∨
      (∃ line, report = .ok (.refusal line) ∧ ruleReply result = .ok (.refusal line)) ∨
      ∃ exit line line', exit ≠ 2 ∧ report = .ok (.answer exit line) ∧
        ruleReply result = .ok (.answer exit line') := by
  cases result with
  | error e =>
    cases e with
    | fault f => exact .inl ⟨f, rfl, rfl⟩
    | declared e => exact .inr (.inl ⟨_, rfl, rfl⟩)
  | ok b =>
    cases b with
    | true => exact .inr (.inr ⟨0, _, _, by decide, rfl, rfl⟩)
    | false => exact .inr (.inr ⟨1, _, _, by decide, rfl, rfl⟩)

end Surroundings

/-- **A check and an evaluation agree.** Suppose that a configuration has no defects, and that one
of its rules uses no chance. Then checking the rule by its name and evaluating it without further
arguments end in the same fault or both with a code, which is the same. With the code 2 both have
the same line on the error output, after the log if it is asked for. -/
theorem check_agrees_with_eval {s : Surroundings} {place : Place} {site : Site} {config : Config}
    {name rule : String} (located : place.site s.resolve = .ok site)
    (clean : s.diagnostics site = .ok []) (loaded : (s.load site).result = .ok config)
    (configured : config.rules.find? name = some rule) (chanceless : ¬ UsesChance rule)
    (bits' : Bits) (json verbose verbose' : Bool) :
    let check := s.runRequest (.check place [name] json verbose)
    let eval := Surroundings.runRequest { s with bits := bits' }
      (.eval place rule [] [] none verbose')
    (∀ f, check = .error f ↔ eval = .error f) ∧
    ∀ c c', check = .ok c → eval = .ok c' → c.exit = c'.exit ∧
      (c.exit = 2 → ∃ log line, c = completion verbose log (.refusal line) ∧
        c' = completion verbose' log (.refusal line)) := by
  intro check eval
  have hcheck : check = s.runCheck site [name] json verbose := by
    have hrun : check = (place.site s.resolve >>= fun site =>
      s.runCheck site [name] json verbose) := rfl
    rw [hrun, located]
    rfl
  have heval : eval = s.runEval site rule [] [] none verbose' := by
    have hrun : eval = (place.site s.resolve >>= fun site =>
      Surroundings.runEval { s with bits := bits' } site rule [] [] none verbose') := rfl
    rw [hrun, located]
    -- the source of bits makes no difference, and it is all that is changed
    have hbits : (s.evaluator config .empty).evaluate rule bits' =
        (s.evaluator config .empty).evaluate rule s.bits :=
      Evaluator.evaluate_of_not_usesChance chanceless bits' s.bits
    rw [Surroundings.runEval_of_loaded loaded, ← hbits]
    exact Surroundings.runEval_of_loaded (s := { s with bits := bits' }) loaded rule verbose'
  rw [Surroundings.runCheck_singleton clean loaded configured] at hcheck
  rw [Surroundings.runEval_of_loaded loaded] at heval
  dsimp only at hcheck heval
  rw [hcheck, heval]
  rcases Surroundings.replies_agree json (s.evaluator config .empty).today name rule
    ((s.evaluator config .empty).evaluate rule s.bits).result with
    ⟨f, hreport, hrule⟩ | ⟨line, hreport, hrule⟩ | ⟨exit, line, line', hexit, hreport, hrule⟩
  all_goals rw [hreport, hrule]
  · exact ⟨fun f' => Iff.rfl, fun _ _ h => nomatch h⟩
  · refine ⟨fun f => ⟨nofun, nofun⟩, ?_⟩
    rintro _ _ ⟨⟩ ⟨⟩
    exact ⟨rfl, fun _ => ⟨_, line, rfl, rfl⟩⟩
  · refine ⟨fun f => ⟨nofun, nofun⟩, ?_⟩
    rintro _ _ ⟨⟩ ⟨⟩
    exact ⟨rfl, fun h => absurd h hexit⟩

/-- A rule for a key that is not there is refused by both with the same line. -/
theorem check_agrees_with_eval_missing_key :
    let rules : Value := .map [(.text "pro", .text "eq:plan,pro")]
    let s : Surroundings := ⟨Location.top.seek, fun l => if l = .top then .directory else
      .file (.ok (.map [(.text "rules", rules)])), Yaml.reader, .empty, .first, fun _ => false⟩
    let refusal : Completion :=
      ⟨2, "", "Evaluation error: Invalid clause 'eq:plan,pro': Key 'plan' not provided\n"⟩
    s.runRequest (.check ⟨some ".", none⟩ ["pro"] true false) = .ok refusal ∧
      s.runRequest (.eval ⟨some ".", none⟩ "eq:plan,pro" [] [] none false) = .ok refusal := by
  intro rules s refusal
  have hcheck : s.runRequest (.check ⟨some ".", none⟩ ["pro"] true false) = .ok refusal := by
    decide +kernel
  have hconfig : ((s.load ⟨.top, .ok none⟩).result.toOption.bind fun c => c.rules.find? "pro") =
      some "eq:plan,pro" := by decide +kernel
  obtain ⟨config, hloaded, configured⟩ := Option.bind_eq_some_iff.1 hconfig
  have loaded : (s.load ⟨.top, .ok none⟩).result = .ok config := by
    cases hresult : (s.load ⟨.top, .ok none⟩).result <;> simp_all [Except.toOption]
  have located : Place.site s.resolve ⟨some ".", none⟩ = .ok ⟨.top, .ok none⟩ := rfl
  obtain ⟨hfaults, hcodes⟩ := check_agrees_with_eval located (by decide +kernel) loaded configured
    (by decide +kernel) s.bits true false false
  refine ⟨hcheck, ?_⟩
  cases heval : s.runRequest (.eval ⟨some ".", none⟩ "eq:plan,pro" [] [] none false) with
  | error f => cases hcheck.symm.trans ((hfaults f).2 heval)
  | ok c' =>
    obtain ⟨log, line, hlog, hlog'⟩ := (hcodes _ c' hcheck heval).2 rfl
    rw [hlog, hlog']

end Verdict.Command
