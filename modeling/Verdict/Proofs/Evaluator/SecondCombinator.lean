import Verdict.Proofs.Evaluator.Reach
import Verdict.Proofs.Rule.Occurrence
/-!
# A second combinator when it is reached

Evaluation looks for one combinator. A second one is left to the predicate of the right operand,
which sees it in its name or in an argument. A name is refused with it, and so is the name of a
weekday or a month; predicates without arguments refuse any. But a key, a literal and a setting may
be any text, so the predicates that take these go on with a combinator inside an argument as with
any other. This module says exactly for which right operands that is so
(`evaluate_of_second_combinator`).
-/

namespace Verdict

open Combinator

/-- The predicates whose arguments may be any texts. -/
def Predicate.textual : List Predicate := [.present, .eq, .neq, .lt, .lte, .gt, .gte, .env]

/-- A predicate is textual by its family. -/
theorem Predicate.mem_textual_iff {p : Predicate} :
    p ∈ Predicate.textual ↔ p.family ≠ .bare ∧ ∀ part, p.family ≠ .calendar part := by
  cases p <;> simp [textual, family]

namespace Evaluator

variable {E : Evaluator}

/-- A predicate that answers with a combinator in an argument is textual. -/
theorem Answers.mem_textual {p : Predicate} {args : List String} (h : E.Answers p.family args)
    {a : String} (ha : a ∈ args) (hoccurs : Occurs a.toList) : p ∈ Predicate.textual := by
  rw [Predicate.mem_textual_iff]
  refine ⟨fun hbare => ?_, fun part hpart => ?_⟩
  · rw [hbare] at h
    cases h
    exact List.not_mem_nil ha
  · rw [hpart] at h
    cases h with
    | calendar _ reads =>
      obtain ⟨n, hn⟩ := reads a ha
      rw [CalendarPart.read_of_occurs part hoccurs] at hn
      cases hn

/-- A clause with a combinator in it has an answer exactly when its predicate is textual and has
one. -/
theorem answersClause_iff_of_occurs {clause : String} (h : Occurs clause.toList) :
    E.AnswersClause clause ↔ ∃ p ∈ Predicate.textual, p.name = (Clause.parse clause).name ∧
      E.Answers p.family (Clause.parse clause).args := by
  constructor
  · rintro ⟨p, hp, hanswers⟩
    refine ⟨p, ?_, Predicate.name_of_ofName? hp, hanswers⟩
    rcases (Clause.occurs_iff_name_or_args clause).1 h with hname | ⟨a, ha, hoccurs⟩
    · rw [Predicate.ofName?_of_occurs hname] at hp
      cases hp
    · exact hanswers.mem_textual ha hoccurs
  · rintro ⟨p, -, hname, hanswers⟩
    exact ⟨p, by rw [← hname, Predicate.ofName?_name], hanswers⟩

/-- **A second combinator that is reached.** The evaluation gives an answer exactly when the right
operand calls a textual predicate that has one, the combinator standing in an argument; it ends in
the fault of the right operand if that overruns; and only otherwise is it an error, which names the
right operand. -/
theorem evaluate_of_second_combinator {rule left right : String} {op : Combinator} {bits : Bits}
    (hsplit : Expression.split rule = .compound left op right)
    (hsecond : Occurs right.toList)
    (undecided : (E.evaluateClause left bits).result = .ok (!op.deciding)) :
    ((∃ b, (E.evaluate rule bits).result = .ok b) ↔
      ∃ p ∈ Predicate.textual, p.name = (Clause.parse right).name ∧
        E.Answers p.family (Clause.parse right).args) ∧
    (∀ f, (E.evaluate rule bits).result = .error (.fault f) ↔ E.OverrunsClause right f) ∧
    ((∃ cause, (E.evaluate rule bits).result = .error (.declared ⟨right, cause⟩)) ↔
      (¬ ∃ p ∈ Predicate.textual, p.name = (Clause.parse right).name ∧
        E.Answers p.family (Clause.parse right).args) ∧
      ∀ f, ¬ E.OverrunsClause right f) := by
  rw [result_evaluate_of_undecided hsplit undecided]
  generalize bits.from (E.evaluateClause left bits).drawn = rest
  have hanswer : (∃ b, (E.evaluateClause right rest).result = .ok b) ↔ E.AnswersClause right :=
    evaluateClause_isOk_iff
  rw [answersClause_iff_of_occurs hsecond] at hanswer
  have hfault : ∀ f, (E.evaluateClause right rest).result = .error (.fault f) ↔
      E.OverrunsClause right f := fun f => evaluateClause_eq_fault_iff
  refine ⟨hanswer, hfault, ?_⟩
  -- an end that is neither an answer nor a fault is an error of the clause
  simp only [← hanswer, ← hfault]
  cases hresult : (E.evaluateClause right rest).result with
  | ok b => simp
  | error e =>
    cases e with
    | fault f => simp
    | declared e =>
      have hclause : e.clause = right := (of_evaluateClause_eq_declared hresult).1
      simp only [reduceCtorEq, exists_false, not_false_eq_true, Except.error.injEq,
        Failure.declared.injEq, implies_true, and_self, iff_true]
      exact ⟨e.cause, by rw [← hclause]⟩

/-- An evaluator on a Wednesday, with one key in its data. -/
def withPlan : Evaluator :=
  ⟨Table.empty.insert "plan" (.text "a&&b"), ⟨2017, 3, 29, by decide, by decide⟩, .empty⟩

/-- A literal with a combinator in it is compared like any other. -/
theorem evaluate_eq_of_second_combinator :
    Expression.split "never||eq:plan,a&&b" = .compound "never" .or "eq:plan,a&&b" ∧
      Occurs "eq:plan,a&&b".toList ∧
      (withPlan.evaluateClause "never" fun _ => false).result = .ok (!Combinator.or.deciding) ∧
      ∃ b, (withPlan.evaluate "never||eq:plan,a&&b" fun _ => false).result = .ok b := by
  have hsplit : Expression.split "never||eq:plan,a&&b" =
      .compound "never" .or "eq:plan,a&&b" := rfl
  have hsecond : Occurs "eq:plan,a&&b".toList := (isSome_splitChars?_iff _).1 rfl
  have undecided : (withPlan.evaluateClause "never" fun _ => false).result =
      .ok (!Combinator.or.deciding) := rfl
  have hanswers : withPlan.Answers .equality ["plan", "a&&b"] :=
    .equality rfl fun long => absurd long (Value.not_holdsLong_of_parts_eq_nil (by simp) rfl)
  exact ⟨hsplit, hsecond, undecided,
    (evaluate_of_second_combinator hsplit hsecond undecided).1.2
      ⟨.eq, by decide, by decide, hanswers⟩⟩

/-- A key with a combinator in it is looked up like any other, and here there is none. -/
theorem evaluate_exists_eq_false :
    Expression.split "always&&exists:a||b" = .compound "always" .and "exists:a||b" ∧
      Occurs "exists:a||b".toList ∧
      (withPlan.evaluateClause "always" fun _ => false).result = .ok (!Combinator.and.deciding) ∧
      (withPlan.evaluate "always&&exists:a||b" fun _ => false).result = .ok false :=
  ⟨rfl, (isSome_splitChars?_iff _).1 rfl, rfl, rfl⟩

end Evaluator

end Verdict
