import Verdict.Proofs.Command.Arguments
import Verdict.Proofs.Command.Check
/-!
# Runs with a log

The log is kept whether it is asked for or not, and nothing reads it. So a run that is asked for its
log ends like one that is not, and shows the log in front of what the other says on the error
output. Each run has random bits of its own, which is why the rules must not use chance.
-/

namespace Verdict.Command

/-- What a run with a log is, beside one without: the same, but for records in front of the error
output. -/
inductive OnlyLogs : Except Fault Completion → Except Fault Completion → Prop
  /-- The same fault ends both. -/
  | fault (f : Fault) : OnlyLogs (.error f) (.error f)
  /-- Both end with the same code and answer. -/
  | completed {plain verbose : Completion} (records : List Event)
    (exit : verbose.exit = plain.exit) (output : verbose.output = plain.output)
    (errors : verbose.errors =
      String.join (records.map fun e => "DEBUG " ++ e.message ++ "\n") ++ plain.errors) :
    OnlyLogs (.ok plain) (.ok verbose)

theorem OnlyLogs.refl (x : Except Fault Completion) : OnlyLogs x x := by
  cases x with
  | error f => exact .fault f
  | ok c => exact .completed [] rfl rfl (by simp)

/-- The same reply with the same log. -/
theorem onlyLogs_completion (verbose : Bool) (log : List Event) (x : Except Fault Reply) :
    OnlyLogs (x.map (completion verbose log)) (x.map (completion true log)) := by
  cases verbose with
  | true => exact .refl _
  | false =>
    cases x with
    | error f => exact .fault f
    | ok reply =>
      cases reply with
      | answer exit line => exact .completed log rfl rfl (by simp [completion, Event.line])
      | refusal line =>
        exact .completed log rfl rfl (by simp [completion, Event.line, String.append_assoc])

/-! ## Commands -/

namespace Surroundings

variable {s : Surroundings} {site : Site} {bits : Bits}

/-- Asking for a log changes nothing else about the evaluation of a rule without chance. -/
theorem runEval_onlyLogs {rule : String} (chanceless : ¬ UsesChance rule)
    (data settings : List (Option String)) (date : Option (Option String)) (verbose : Bool) :
    OnlyLogs (s.runEval site rule data settings date verbose)
      (runEval { s with bits } site rule data settings date true) := by
  have hload : load { s with bits } site = s.load site := rfl
  have hlayered (config : Config) : layered { s with bits } config data settings date =
      s.layered config data settings date := rfl
  unfold runEval
  dsimp only
  rw [hload]
  cases (s.load site).result with
  | error e => exact onlyLogs_completion verbose _ _
  | ok config =>
    dsimp only
    rw [hlayered]
    cases s.layered config data settings date with
    | error e => exact onlyLogs_completion verbose _ _
    | ok E =>
      dsimp only
      rw [Evaluator.evaluate_of_not_usesChance chanceless bits s.bits]
      exact onlyLogs_completion verbose _ _

/-- Asking for a log changes nothing else about a check of rules without chance. -/
theorem runCheck_onlyLogs {names : List String}
    (chanceless : ∀ config, (s.load site).result = .ok config → ∀ name ∈ config.requested names,
      ∀ rule, config.rules.find? name = some rule → ¬ UsesChance rule) (json verbose : Bool) :
    OnlyLogs (s.runCheck site names json verbose)
      (runCheck { s with bits } site names json true) := by
  -- the draws change neither the diagnosis nor the configuration
  have hdiagnostics : diagnostics { s with bits } site = s.diagnostics site := rfl
  have hload : load { s with bits } site = s.load site := rfl
  unfold runCheck
  dsimp only
  rw [hdiagnostics, hload]
  cases s.diagnostics site with
  | error f => exact .fault f
  | ok ds =>
    simp only [bind, Except.bind]
    split
    · exact .refl _
    · cases loaded : (s.load site).result with
      | error e => exact onlyLogs_completion verbose _ _
      | ok config =>
        dsimp only
        cases selected : selectRules config names with
        | error e => exact onlyLogs_completion verbose _ (.ok (configRefusal e))
        | ok rules =>
          dsimp only
          have hevaluator : evaluator { s with bits } config .empty = s.evaluator config .empty :=
            rfl
          rw [hevaluator, evaluateRules_of_chanceless chanceless loaded selected _ bits s.bits]
          exact onlyLogs_completion verbose _ _

end Surroundings

/-! ## Requests -/

/-- Whether the rules that a request asks for use no chance. -/
def Request.Chanceless (s : Surroundings) : Request → Prop
  | .eval _ rule _ _ _ _ => ¬ UsesChance rule
  | .check place names _ _ => ∀ site config, place.site s.resolve = .ok site →
      (s.load site).result = .ok config → ∀ name ∈ config.requested names, ∀ rule,
        config.rules.find? name = some rule → ¬ UsesChance rule
  | .validate _ => True

/-- Asking for a log changes nothing else about a request without chance. -/
theorem runRequest_onlyLogs {s : Surroundings} {r r' : Request} (logging : r.verbosely? = some r')
    (chanceless : r.Chanceless s) (bits : Bits) :
    OnlyLogs (s.runRequest r) (Surroundings.runRequest { s with bits } r') := by
  cases r with
  | validate => cases logging
  | eval place rule data settings date verbose =>
    cases logging
    unfold Surroundings.runRequest
    dsimp only [Request.place]
    cases place.site s.resolve with
    | error f => exact .fault f
    | ok site => exact Surroundings.runEval_onlyLogs chanceless data settings date verbose
  | check place names json verbose =>
    cases logging
    unfold Surroundings.runRequest
    dsimp only [Request.place]
    cases located : place.site s.resolve with
    | error f => exact .fault f
    | ok site =>
      refine Surroundings.runCheck_onlyLogs (fun config loaded => ?_) json verbose
      exact chanceless site config located loaded

/-- **A log is observation only.** Let a command line be accepted that evaluates or checks rules
without chance. With `-v` behind the command it is accepted too, and is the same request with a log.
However that request is written, the run ends with the same fault, or with the same code and the
same standard output; and its error output is the records of the log and then what the run without
it says there. -/
theorem verbose_only_logs {s : Surroundings} {args : List String} {r r' : Request}
    (accepted : readRequest args = .ok r) (logging : r.verbosely? = some r')
    (chanceless : r.Chanceless s) (bits : Bits) :
    readRequest (addVerbose args) = .ok r' ∧ ∀ args', readRequest args' = .ok r' →
      OnlyLogs (run s args) (run { s with bits } args') := by
  refine ⟨readRequest_addVerbose accepted logging, fun args' accepted' => ?_⟩
  unfold run runWith
  rw [accepted, accepted']
  exact runRequest_onlyLogs logging chanceless bits

/-- What was decided before a clause fails is in the log, in front of the error. -/
theorem verbose_only_logs_failing_clause :
    let s : Surroundings := ⟨Location.top.seek, fun l => if l = .top then .directory else .missing,
      Yaml.reader, .empty, .first, fun _ => false⟩
    let args := ["eval", "-r", ".", "always&&nope"]
    let error := "Evaluation error: Invalid clause 'nope': Unknown predicate 'nope'\n"
    run s args = .ok ⟨2, "", error⟩ ∧
      run s (addVerbose args) = .ok ⟨2, "", "DEBUG Clause 'always' -> True\n" ++ error⟩ ∧
      OnlyLogs (run s args) (run s (addVerbose args)) := by
  intro s args error
  have accepted : readRequest args =
      .ok (.eval ⟨some ".", none⟩ "always&&nope" [] [] none false) := by decide +kernel
  have chanceless : ¬ UsesChance "always&&nope" := by decide +kernel
  have h := verbose_only_logs (s := s) accepted rfl chanceless (fun _ => false)
  exact ⟨by decide +kernel, by decide +kernel, h.2 _ h.1⟩

end Verdict.Command
