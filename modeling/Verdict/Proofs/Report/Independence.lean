import Mathlib.Algebra.BigOperators.Group.List.Basic
import Verdict.Proofs.AttemptRow
import Verdict.Proofs.Evaluator.Chance
import Verdict.Proofs.Report.Evaluations
import Verdict.Proofs.Report.Reading
import Verdict.Proofs.Session.Snapshot
/-!
# Rules do not depend on each other

Rules in a row share an evaluator, which does not change, and a source of random bits, which moves
on. A rule without chance takes no bit (`drawn_of_not_usesChance`) and is evaluated in the same way
from every bit, so a row of such rules is a row of attempts each of which is made on its own
(`result_evaluateRules_eq_mapM`), and what holds of attempts in a row holds of the rules: their
order, and whether others stand between them, makes no difference to what each one comes to.

With chance the bits tie the rules together, in one way only: a row of rules does what a caller does
who asks for them one after the other (`run_evaluations`).
-/

namespace Verdict

variable {E : Evaluator} {rule : String} {rules : List (String × String)} {bits : Bits}

/-! ## Rules without chance -/

namespace Evaluator

theorem drawn_of_not_usesChance (h : ¬ UsesChance rule) (bits : Bits) :
    (E.evaluate rule bits).drawn = 0 := by
  rw [drawn_evaluate, List.countP_eq_zero]
  intro clause hreached hchance
  obtain ⟨rest, hreach⟩ := mem_reached_iff.1 hreached
  exact h ⟨clause, hreach.mem_operands, (of_decide_eq_true hchance).1⟩

/-- Rules without chance leave the source of bits where it is, also those that fail. -/
theorem drawn_evaluateRules_eq_zero (h : ∀ entry ∈ rules, ¬ UsesChance entry.2) (bits : Bits) :
    (E.evaluateRules rules bits).drawn = 0 := by
  rw [drawn_evaluateRules]
  refine List.sum_eq_zero fun n hn => ?_
  obtain ⟨v, hv, rfl⟩ := List.mem_map.1 hn
  have hentry : v.entry ∈ rules :=
    (evaluations_prefix_rules E rules bits).subset (List.mem_map_of_mem hv)
  obtain ⟨rest, hrest⟩ := outcome_of_mem_evaluations hv
  rw [hrest]
  exact drawn_of_not_usesChance (h _ hentry) rest

/-- The result of a named rule on its own. -/
def resultOf (E : Evaluator) (bits : Bits) (entry : String × String) :
    Except (Failure ClauseError) RuleResult :=
  (E.evaluate entry.2 bits).result.map fun b => ⟨entry.1, entry.2, b⟩

/-- The result of a rule by itself is the answer of the rule, under its name. -/
theorem resultOf_eq_ok_iff {entry : String × String} {r : RuleResult} :
    E.resultOf bits entry = .ok r ↔
      (E.evaluate entry.2 bits).result = .ok r.holds ∧ r.name = entry.1 ∧ r.rule = entry.2 := by
  obtain ⟨name, rule, holds⟩ := r
  rw [resultOf, map_eq_ok_iff]
  constructor
  · rintro ⟨b, hb, hr⟩
    cases hr
    exact ⟨hb, rfl, rfl⟩
  · rintro ⟨hb, rfl, rfl⟩
    exact ⟨holds, hb, rfl⟩

theorem resultOf_eq_error_iff {entry : String × String} {e : Failure ClauseError} :
    E.resultOf bits entry = .error e ↔ (E.evaluate entry.2 bits).result = .error e :=
  map_eq_error_iff

/-- A named rule has a result if the rule has an answer. -/
theorem exists_resultOf_iff {entry : String × String} :
    (∃ r, E.resultOf bits entry = .ok r) ↔ ∃ b, (E.evaluate entry.2 bits).result = .ok b := by
  unfold resultOf
  cases (E.evaluate entry.2 bits).result <;> simp [Except.map]

/-- Rules without chance come to what each of them comes to on its own, from any bit. -/
theorem result_evaluateRules_eq_mapM (h : ∀ entry ∈ rules, ¬ UsesChance entry.2)
    (bits bits' : Bits) :
    (E.evaluateRules rules bits).result = rules.mapM (E.resultOf bits') := by
  induction rules generalizing bits with
  | nil => rfl
  | cons entry rules ih =>
    obtain ⟨name, rule⟩ := entry
    obtain ⟨hrule, hrules⟩ := List.forall_mem_cons.1 h
    rw [evaluateRules, List.mapM_cons, resultOf, evaluate_of_not_usesChance hrule bits bits']
    cases hfirst : (E.evaluate rule bits').result with
    | error e =>
      rw [Outcome.andThen_of_error _ hfirst]
      rfl
    | ok b =>
      rw [Outcome.andThen_of_ok _ hfirst]
      dsimp only [Outcome.map]
      rw [ih hrules]
      cases rules.mapM (E.resultOf bits') <;> rfl

end Evaluator

/-! ## Reports -/

theorem allHold_of_perm {rs rs' : List RuleResult} (h : rs.Perm rs') : allHold rs' = allHold rs :=
  h.symm.all_eq

/-- What a JSON report says of all its rules. -/
def Report.passed? (report : String) : Option Json :=
  (Json.read? report).bind (Json.find? "passed")

theorem Report.passed?_json (today : Date) (rs : List RuleResult) :
    passed? (json today rs) = some (.bool (allHold rs)) := by
  rw [passed?, read?_json]
  rfl

/-! ## Rules that a caller asks for -/

theorem Bits.from_add (bits : Bits) (m n : Nat) : bits.from (m + n) = (bits.from m).from n := by
  funext i
  exact congrArg bits (Nat.add_assoc m n i)

namespace Session

variable {clock : Nat → Date} {s : Session}

/-- The session with more bits taken. -/
def skip (s : Session) (n : Nat) : Session := { s with drawn := s.drawn + n }

theorem drawn_skip (s : Session) (n : Nat) : (s.skip n).drawn = s.drawn + n := rfl

theorem skip_add (s : Session) (m n : Nat) : s.skip (m + n) = (s.skip m).skip n := by
  simp only [skip, Nat.add_assoc]

/-- The answer of an evaluation in a session. -/
def answerOf (v : Evaluation) : StepAnswer := ⟨.evaluated v.outcome.result, v.outcome.log⟩

/-- A rule that is asked for takes bits from the source and changes nothing else. -/
theorem step_evaluate (hE : s.evaluators[s.current]? = some E) (name rule : String) :
    s.step clock bits (.evaluate rule) =
      (s.skip (E.evaluate rule (bits.from s.drawn)).drawn,
        answerOf ⟨name, rule, E.evaluate rule (bits.from s.drawn)⟩) := by
  simp only [step, ask, hE, skip, answerOf]

/-- What a caller does who asks for rules one after the other. -/
def asking (rules : List (String × String)) : List Step := rules.map fun entry => .evaluate entry.2

theorem asking_cons (entry : String × String) (rules : List (String × String)) :
    asking (entry :: rules) = .evaluate entry.2 :: asking rules := rfl

/-- A caller who asks for the rules that are evaluated gets the answers of the evaluations, and has
taken the bits that they take. -/
theorem run_evaluations (hE : s.evaluators[s.current]? = some E) (rules : List (String × String)) :
    s.run clock bits (asking ((E.evaluations rules (bits.from s.drawn)).map Evaluation.entry)) =
      (s.skip (E.evaluateRules rules (bits.from s.drawn)).drawn,
        (E.evaluations rules (bits.from s.drawn)).map answerOf) := by
  rw [Evaluator.drawn_evaluateRules]
  -- the session is general, since every rule is asked for where the one before stopped
  induction rules generalizing s with
  | nil => rfl
  | cons entry rules ih =>
    obtain ⟨name, rule⟩ := entry
    have hstep : s.step clock bits (.evaluate rule) =
        (s.skip (E.evaluate rule (bits.from s.drawn)).drawn,
          answerOf ⟨name, rule, E.evaluate rule (bits.from s.drawn)⟩) := step_evaluate hE name rule
    cases hfirst : (E.evaluate rule (bits.from s.drawn)).result with
    | ok b =>
      have hrest := ih (s := s.skip (E.evaluate rule (bits.from s.drawn)).drawn) hE
      rw [drawn_skip, Bits.from_add, ← skip_add] at hrest
      rw [Evaluator.evaluations_of_ok hfirst, List.map_cons, List.map_cons, List.map_cons,
        List.sum_cons, Evaluation.entry, asking_cons, run_cons, hstep, hrest]
    | error e =>
      rw [Evaluator.evaluations_of_error hfirst]
      exact congrArg (fun p => (p.1, [p.2])) hstep

end Session

/-! ## Rows of rules -/

/-- What becomes of rules in a row that do not depend on each other: they come to what each of them
comes to on its own, from any bit. -/
structure Evaluator.OwnResults (E : Evaluator) (rules : List (String × String))
    (bits bits' : Bits) : Prop where
  /-- The row fails as the first of the rules that fails on its own. -/
  first (e : Failure ClauseError) : (E.evaluateRules rules bits).result = .error e ↔
    ∃ before entry after, rules = before ++ entry :: after ∧
      (∀ earlier ∈ before, ∃ b, (E.evaluate earlier.2 bits').result = .ok b) ∧
      (E.evaluate entry.2 bits').result = .error e
  /-- It fails exactly if some rule does. -/
  fails : (∃ e, (E.evaluateRules rules bits).result = .error e) ↔
    ∃ entry ∈ rules, ∃ e, (E.evaluate entry.2 bits').result = .error e
  /-- Otherwise there is one result for each rule, in order. -/
  answers (rs : List RuleResult) : (E.evaluateRules rules bits).result = .ok rs ↔
    List.Forall₂ (fun entry r => (E.evaluate entry.2 bits').result = .ok r.holds ∧
      r.name = entry.1 ∧ r.rule = entry.2) rules rs
  /-- No bit is taken. -/
  untouched : (E.evaluateRules rules bits).drawn = 0
  /-- In another order there are the same results in another order, and a JSON report says the same
  of all of them. -/
  reordered {rules' : List (String × String)} (perm : rules.Perm rules') {rs : List RuleResult}
    (answered : (E.evaluateRules rules bits).result = .ok rs) :
    ∃ rs', (E.evaluateRules rules' bits).result = .ok rs' ∧ rs.Perm rs' ∧
      ∀ today, Report.passed? (Report.json today rs') = Report.passed? (Report.json today rs)
  /-- Without some rules that do not fail, the row ends as with them, but for their results. -/
  without (keep : String × String → Bool)
    (left : ∀ entry ∈ rules, keep entry = false →
      ∃ b, (E.evaluate entry.2 bits').result = .ok b) :
    (E.evaluateRules (rules.filter keep) bits).result =
      (E.evaluateRules rules bits).result.map (List.filter fun r => keep (r.name, r.rule))

/-- Rules without chance have the results that each has by itself. -/
theorem Evaluator.ownResults_of_not_usesChance (h : ∀ entry ∈ rules, ¬ UsesChance entry.2)
    (bits bits' : Bits) : E.OwnResults rules bits bits' := by
  -- without chance a row is the row of the results that each rule has alone
  have hrow (rules' : List (String × String)) (hsubset : ∀ entry ∈ rules', entry ∈ rules) :
      (E.evaluateRules rules' bits).result = rules'.mapM (E.resultOf bits') :=
    result_evaluateRules_eq_mapM (fun entry hentry => h entry (hsubset entry hentry)) bits bits'
  have hself := hrow rules fun _ => id
  refine ⟨fun e => ?_, ?_, fun rs => ?_, drawn_evaluateRules_eq_zero h bits, ?_, ?_⟩
  · rw [hself]
    simp only [mapM_eq_error_iff, exists_resultOf_iff, resultOf_eq_error_iff]
  · simp only [hself, mapM_isError_iff, resultOf_eq_error_iff]
  · rw [hself]
    simp only [mapM_eq_ok_iff, resultOf_eq_ok_iff]
  · intro rules' hperm rs hrs
    rw [hself] at hrs
    obtain ⟨rs', hrs', hresults⟩ := exists_mapM_of_perm hperm hrs
    rw [hrow rules' fun _ hentry => hperm.mem_iff.2 hentry]
    refine ⟨rs', hrs', hresults, fun today => ?_⟩
    rw [Report.passed?_json, Report.passed?_json, allHold_of_perm hresults]
  · intro keep hleft
    rw [hself, hrow _ fun _ hentry => List.mem_of_mem_filter hentry]
    refine mapM_filter (fun entry r hr => ?_) fun entry hentry hdropped =>
      exists_resultOf_iff.2 (hleft entry hentry hdropped)
    obtain ⟨-, hname, hrule⟩ := resultOf_eq_ok_iff.1 hr
    rw [hname, hrule]

/-- What becomes of rules in a row, told by a session with the evaluator in which the rules of a
list are asked for one after the other. -/
structure Session.AnswersRow (clock : Nat → Date) (bits : Bits) (s : Session)
    (o : Outcome ClauseError (List RuleResult)) (rules asked : List (String × String)) :
    Prop where
  /-- The rules that are asked for are the first ones. -/
  front : asked <+: rules
  /-- The session has taken as many bits, and is what it was otherwise. -/
  drawn : (s.run clock bits (asking asked)).1 = s.skip o.drawn
  /-- The answers are logged in a row. -/
  log : (s.run clock bits (asking asked)).2.flatMap StepAnswer.log = o.log
  /-- Results are the answers to all rules. -/
  answered {rs : List RuleResult} (h : o.result = .ok rs) :
    asked = rules ∧ rs.map (fun r => (r.name, r.rule)) = rules ∧
      (s.run clock bits (asking asked)).2.map StepAnswer.result =
        rs.map fun r => .evaluated (.ok r.holds)
  /-- A failure is the last answer, and the only failure. -/
  failed {e : Failure ClauseError} (h : o.result = .error e) :
    ∃ bs : List Bool, (s.run clock bits (asking asked)).2.map StepAnswer.result =
      bs.map (fun b => .evaluated (.ok b)) ++ [.evaluated (.error e)]

/-- The rules to ask for are those that are evaluated. -/
theorem Session.answersRow_evaluations {clock : Nat → Date} {s : Session}
    (hE : s.evaluators[s.current]? = some E) (rules : List (String × String)) :
    s.AnswersRow clock bits (E.evaluateRules rules (bits.from s.drawn)) rules
      ((E.evaluations rules (bits.from s.drawn)).map Evaluation.entry) := by
  -- the rows of the session are those of the evaluator, entry by entry
  have hrun : s.run clock bits
      (asking ((E.evaluations rules (bits.from s.drawn)).map Evaluation.entry)) =
        (s.skip (E.evaluateRules rules (bits.from s.drawn)).drawn,
          (E.evaluations rules (bits.from s.drawn)).map answerOf) := run_evaluations hE rules
  refine ⟨Evaluator.evaluations_prefix_rules E rules _, congrArg Prod.fst hrun, ?_, ?_, ?_⟩
  · rw [hrun, Evaluator.log_evaluateRules, List.flatMap_map]
    rfl
  · intro rs hrs
    have hall := Evaluator.entries_of_evaluateRules hrs
    have hresults := Evaluator.evaluateRules_eq_ok_iff.1 hrs
    refine ⟨hall, ?_, ?_⟩
    · refine Eq.trans (Eq.symm ?_) hall
      refine Evaluation.map_eq_of_results hresults fun v r hr => ?_
      obtain ⟨-, hname, hrule⟩ := Evaluation.result?_eq_some_iff.1 hr
      rw [hname, hrule, Evaluation.entry]
    · rw [hrun, List.map_map]
      refine Evaluation.map_eq_of_results hresults fun v r hr => ?_
      exact congrArg StepResult.evaluated (Evaluation.result?_eq_some_iff.1 hr).1
  · intro e he
    obtain ⟨before, last, heval, hlast, bs, hbefore⟩ := Evaluator.exists_evaluations_of_error he
    have hresults : before.map (fun v => StepResult.evaluated v.outcome.result) =
        bs.map fun b => .evaluated (.ok b) := by
      simpa only [List.map_map, Function.comp_def] using
        congrArg (List.map StepResult.evaluated) hbefore
    refine ⟨bs, ?_⟩
    rw [hrun, heval, List.map_map, List.map_append, List.map_singleton, ← hresults, ← hlast]
    rfl

/-- **Rules do not depend on each other.** Rules without chance, in a row on an evaluator, come to
what each of them comes to on its own, in their order and in any other, and with other rules between
them. Rules of any kind, from the bit at which a session with the evaluator stands, come to what a
caller is answered who asks for them one after the other, up to the first that fails. -/
theorem rules_independent (E : Evaluator) (rules : List (String × String)) (bits : Bits) :
    ((∀ entry ∈ rules, ¬ UsesChance entry.2) → ∀ bits', E.OwnResults rules bits bits') ∧
    ∀ (clock : Nat → Date) (s : Session), s.evaluators[s.current]? = some E →
      ∃ asked, s.AnswersRow clock bits (E.evaluateRules rules (bits.from s.drawn)) rules asked :=
  ⟨fun h bits' => Evaluator.ownResults_of_not_usesChance h bits bits',
    fun _ _ hE => ⟨_, Session.answersRow_evaluations hE rules⟩⟩

/-- A rule fails in the same way behind one that has an answer and without it, and the others have
their results in either order. A row with chance stops behind the first bit, where a rule fails. -/
theorem rules_independent_of_failing_rule :
    let E : Evaluator := ⟨.ofList [("plan", .text "pro")], .first, .empty⟩
    let bits : Bits := fun n => n == 1
    let paid := ("paid", "eq:plan,pro&&weekday")
    let broken := ("broken", "never||days:none")
    let e : Failure ClauseError := .declared ⟨"days:none", .unrecognized "day" "none"⟩
    let s : Session := ⟨.empty, [], 1, 1, [E], 0⟩
    (E.evaluateRules [paid, broken] bits).result = .error e ∧
    (E.evaluateRules [broken] bits).result = .error e ∧
    (∃ rs, (E.evaluateRules [("rest", "weekend"), paid] bits).result = .ok rs ∧
      [⟨"paid", "eq:plan,pro&&weekday", true⟩, ⟨"rest", "weekend", false⟩].Perm rs) ∧
    ∃ asked, asked <+: [("coin", "random"), broken, ("late", "random")] ∧
      (s.run (fun _ => .first) bits (Session.asking asked)).1.drawn = 2 := by
  intro E bits paid broken e s
  obtain ⟨failing, -⟩ := rules_independent E [paid, broken] bits
  have hfailing := failing (by decide +kernel) bits
  have herror := (hfailing.first e).2
    ⟨[paid], broken, [], rfl, by decide +kernel, by decide +kernel⟩
  have hless := hfailing.without (fun entry => entry.1 ≠ "paid") (by decide +kernel)
  rw [herror] at hless
  obtain ⟨answering, -⟩ := rules_independent E [paid, ("rest", "weekend")] bits
  have hanswered : (E.evaluateRules [paid, ("rest", "weekend")] bits).result =
      .ok [⟨"paid", "eq:plan,pro&&weekday", true⟩, ⟨"rest", "weekend", false⟩] := by
    decide +kernel
  obtain ⟨rs, hrs, hresults, -⟩ :=
    (answering (by decide +kernel) bits).reordered (List.Perm.swap _ _ _) hanswered
  obtain ⟨-, chance⟩ := rules_independent E [("coin", "random"), broken, ("late", "random")] bits
  obtain ⟨asked, hasked⟩ := chance (fun _ => .first) s rfl
  refine ⟨herror, hless, ⟨rs, hrs, hresults⟩, asked, hasked.front, ?_⟩
  rw [hasked.drawn]
  decide +kernel

end Verdict
