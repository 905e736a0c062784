import Verdict.Proofs.Evaluator.Reach
import Verdict.Proofs.Rule.Occurrence
import Verdict.Rule.Lint
/-!
# Lint and evaluation

Lint looks at the names in a rule without evaluating anything, by a form and a list of its own.
Evaluation looks a name up among the predicates when it comes to the clause. The list has the names
of the predicates (`mem_predicateNames_iff`), and this module shows that the two agree: what lint
reports about an operand is what every evaluator runs into there, and a rule without a report never
fails for a name.

The form of a name decides no more than which of two problems is reported, because every name of a
predicate has the form (`isWellFormedName_name`).
-/

namespace Verdict

/-! ## Names -/

/-- Every name of a predicate is one in form. -/
theorem isWellFormedName_name (p : Predicate) : isWellFormedName p.name = true := by
  cases p <;> decide

/-- The names that lint knows are those of the predicates. -/
theorem mem_predicateNames_iff {s : String} :
    s ∈ predicateNames ↔ ∃ p : Predicate, p.name = s := by
  have hnames : predicateNames = Predicate.all.map Predicate.name := rfl
  constructor
  · intro h
    rw [hnames] at h
    obtain ⟨p, -, hp⟩ := List.mem_map.1 h
    exact ⟨p, hp⟩
  · rintro ⟨p, rfl⟩
    cases p <;> decide

/-- A name is found exactly when it is some predicate's. -/
theorem Predicate.ofName?_ne_none_iff {s : String} :
    Predicate.ofName? s ≠ none ↔ ∃ p : Predicate, p.name = s := by
  constructor
  · intro h
    obtain ⟨p, hp⟩ := Option.ne_none_iff_exists'.1 h
    exact ⟨p, Predicate.name_of_ofName? hp⟩
  · rintro ⟨p, rfl⟩
    simp

/-! ## One operand -/

/-- Nothing is wrong with an operand exactly when a predicate has its name. -/
theorem lintOperand_eq_nil_iff {operand : String} :
    lintOperand operand = [] ↔ ∃ p : Predicate, p.name = (Clause.parse operand).name := by
  rw [← mem_predicateNames_iff]
  unfold lintOperand
  by_cases hknown : (Clause.parse operand).name ∈ predicateNames
  · -- a name that a predicate has is never reported for its form
    obtain ⟨p, hp⟩ := mem_predicateNames_iff.1 hknown
    simp [← hp, isWellFormedName_name, mem_predicateNames_iff]
  · simp only [hknown, if_false, iff_false]
    split <;> exact List.cons_ne_nil _ _

/-- What is wrong with an operand: one of the two problems that a name can have, and no predicate
has the name. -/
theorem of_mem_lintOperand {operand : String} {problem : RuleProblem}
    (h : problem ∈ lintOperand operand) :
    (problem = .unknownName (Clause.parse operand).name ∨
        problem = .malformedName (Text.trim operand)) ∧
      Predicate.ofName? (Clause.parse operand).name = none := by
  constructor
  · unfold lintOperand at h
    dsimp only at h
    split at h
    · exact .inr (List.mem_singleton.1 h)
    · split at h
      · exact absurd h List.not_mem_nil
      · exact .inl (List.mem_singleton.1 h)
  · apply Classical.byContradiction
    intro hsome
    rw [lintOperand_eq_nil_iff.2 (Predicate.ofName?_ne_none_iff.1 hsome)] at h
    exact List.not_mem_nil h

theorem length_lintOperand_le (operand : String) : (lintOperand operand).length ≤ 1 := by
  unfold lintOperand
  simp only
  repeat' split
  all_goals simp

/-! ## Operands in order -/

/-- The problems of the names in an expression, each with its operand. -/
def Expression.nameProblems (expression : Expression) : List (String × RuleProblem) :=
  expression.operands.flatMap fun operand => (lintOperand operand).map fun p => (operand, p)

/-- The problems with names are those of the operands, each with the operand that has it. -/
theorem Expression.mem_nameProblems {expression : Expression} {found : String × RuleProblem} :
    found ∈ expression.nameProblems ↔
      found.1 ∈ expression.operands ∧ found.2 ∈ lintOperand found.1 := by
  unfold nameProblems
  simp only [List.mem_flatMap, List.mem_map]
  constructor
  · rintro ⟨operand, hoperand, p, hp, rfl⟩
    exact ⟨hoperand, hp⟩
  · rintro ⟨hoperand, hp⟩
    exact ⟨found.1, hoperand, found.2, hp, rfl⟩

/-- Problems come in the order of the operands, at most one for each. -/
theorem Expression.nameProblems_sublist (expression : Expression) :
    (expression.nameProblems.map Prod.fst).Sublist expression.operands := by
  unfold nameProblems
  induction expression.operands with
  | nil => exact .slnil
  | cons operand operands ih =>
    rw [List.flatMap_cons, List.map_append, List.map_map]
    -- an operand adds itself once or not at all
    match hproblems : lintOperand operand, length_lintOperand_le operand with
    | [], _ => exact ih.cons operand
    | [p], _ => exact ih.cons_cons operand

/-- Lint reports a second combinator alone, and otherwise the problems of the names. -/
theorem lint_eq (rule : String) :
    (Expression.split rule).Chained ∧ lint rule = [.secondCombinator] ∨
      ¬ (Expression.split rule).Chained ∧
        lint rule = (Expression.split rule).nameProblems.map Prod.snd := by
  unfold lint
  cases Expression.split rule with
  | single text =>
    refine .inr ⟨id, ?_⟩
    simp [Expression.nameProblems, Expression.operands, Function.comp_def]
  | compound left op right =>
    simp only [Expression.Chained, ← Combinator.occursIn_iff]
    by_cases hsecond : Combinator.occursIn right = true
    · exact .inl ⟨hsecond, if_pos hsecond⟩
    · refine .inr ⟨hsecond, ?_⟩
      simp [hsecond, Expression.nameProblems, Expression.operands, Function.comp_def]

/-- A problem of a name is no second combinator. -/
theorem code_of_mem_nameProblems {expression : Expression} {found : String × RuleProblem}
    (h : found ∈ expression.nameProblems) :
    found.2.code = "RULE001" ∨ found.2.code = "RULE003" := by
  rcases (of_mem_lintOperand (Expression.mem_nameProblems.1 h).2).1 with hp | hp
  · exact .inl (by rw [hp]; rfl)
  · exact .inr (by rw [hp]; rfl)

/-! ## Agreement -/

/-- A rule is free of reports exactly when it joins at most two clauses and both names are
predicates'. -/
theorem lint_eq_nil_iff {rule : String} :
    lint rule = [] ↔ ¬ (Expression.split rule).Chained ∧
      ∀ operand ∈ (Expression.split rule).operands,
        ∃ p : Predicate, p.name = (Clause.parse operand).name := by
  rcases lint_eq rule with ⟨hchained, hlint⟩ | ⟨hchained, hlint⟩
  · rw [hlint]
    exact ⟨nofun, fun h => absurd hchained h.1⟩
  · rw [hlint, List.map_eq_nil_iff, and_iff_right hchained, Expression.nameProblems,
      List.flatMap_eq_nil_iff]
    simp only [List.map_eq_nil_iff, lintOperand_eq_nil_iff]

/-- A rule that is free of reports never fails for a name. -/
theorem cause_of_lint_eq_nil {rule : String} (h : lint rule = []) {E : Evaluator} {bits : Bits}
    {e : ClauseError} (herror : (E.evaluate rule bits).result = .error (.declared e))
    (name : String) : e.cause ≠ .unknownName name := by
  intro hcause
  -- the error is that of an operand, and lint has looked at every operand
  obtain ⟨clause, rest, hreach, hclause⟩ := Evaluator.evaluate_eq_error_iff.1 herror
  have hknown := (lint_eq_nil_iff.1 h).2 clause hreach.mem_operands
  have hunknown := (Evaluator.of_evaluateClause_eq_declared hclause).2 name hcause
  exact Predicate.ofName?_ne_none_iff.2 hknown hunknown

/-- **Lint agrees with evaluation.** There is no report exactly when the right operand holds no
further combinator and every operand has the name of a predicate; without a report no evaluation
fails for a name; each report about a name belongs to an operand, in order and at most one to each,
that fails for its name on every evaluator; and a second combinator is reported alone. -/
theorem lint_agrees_with_evaluation (rule : String) :
    (lint rule = [] ↔
      (∀ left op right, Expression.split rule = .compound left op right →
        ¬ Combinator.Occurs right.toList) ∧
      ∀ operand ∈ (Expression.split rule).operands,
        ∃ p : Predicate, p.name = (Clause.parse operand).name) ∧
    (lint rule = [] → ∀ (E : Evaluator) (bits : Bits) (clause name : String),
      (E.evaluate rule bits).result ≠ .error (.declared ⟨clause, .unknownName name⟩)) ∧
    (∃ found : List (String × RuleProblem),
      found.map Prod.snd =
        (lint rule).filter (fun p => p.code = "RULE001" ∨ p.code = "RULE003") ∧
      (found.map Prod.fst).Sublist (Expression.split rule).operands ∧
      ∀ entry ∈ found, entry.2 ∈ lintOperand entry.1 ∧ ∀ (E : Evaluator) (bits : Bits),
        E.evaluateClause entry.1 bits =
          ⟨.error (.declared ⟨entry.1, .unknownName (Clause.parse entry.1).name⟩), [], 0⟩) ∧
    ∀ p ∈ lint rule, p.code = "RULE002" → lint rule = [p] := by
  -- that the right operand holds no combinator is what the checks ask of a compound rule
  have hchained : (∀ left op right, Expression.split rule = .compound left op right →
      ¬ Combinator.Occurs right.toList) ↔ ¬ (Expression.split rule).Chained := by
    cases Expression.split rule with
    | single text => exact ⟨fun _ => id, fun _ _ _ _ => nofun⟩
    | compound left op right =>
      refine ⟨fun h => h left op right rfl, fun h _ _ _ heq => ?_⟩
      cases heq
      exact h
  refine ⟨by rw [hchained, lint_eq_nil_iff], fun h E bits clause name herror => ?_, ?_, ?_⟩
  · exact cause_of_lint_eq_nil h herror name rfl
  · rcases lint_eq rule with ⟨-, hlint⟩ | ⟨-, hlint⟩
    · exact ⟨[], by rw [hlint]; rfl, List.nil_sublist _, fun entry h => absurd h List.not_mem_nil⟩
    · refine ⟨(Expression.split rule).nameProblems, ?_, Expression.nameProblems_sublist _,
        fun entry hentry => ?_⟩
      · rw [hlint, eq_comm, List.filter_eq_self]
        intro p hp
        obtain ⟨entry, hentry, rfl⟩ := List.mem_map.1 hp
        exact decide_eq_true (code_of_mem_nameProblems hentry)
      · have hproblem := (Expression.mem_nameProblems.1 hentry).2
        have hnone := (of_mem_lintOperand hproblem).2
        exact ⟨hproblem, fun E => Evaluator.evaluateClause_of_unknown hnone⟩
  · intro p hp hcode
    rcases lint_eq rule with ⟨-, hlint⟩ | ⟨-, hlint⟩
    · rw [hlint] at hp ⊢
      rw [List.mem_singleton.1 hp]
    · rw [hlint] at hp
      obtain ⟨entry, hentry, rfl⟩ := List.mem_map.1 hp
      rcases code_of_mem_nameProblems hentry with h | h
      · exact absurd (h.symm.trans hcode) (by decide)
      · exact absurd (h.symm.trans hcode) (by decide)

end Verdict
