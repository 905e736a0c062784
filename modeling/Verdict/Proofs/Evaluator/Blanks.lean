import Verdict.Proofs.Evaluator.Composition
import Verdict.Proofs.Rule.Rendering
import Verdict.Proofs.Rule.Splitting
/-!
# Blanks do not count

A clause is evaluated by its name and its arguments, so writing it without blanks changes its text
and nothing that is found out from it (`evaluateClause_normal`). Texts of clauses come back in two
places only, in an error and in the lines of a log. `Outcome.normal` is the outcome with these texts
written without blanks.

In a rule the blanks go after the split is made. Without them the left operand still holds no
combinator, but it may now end in the mark of the one that joins, as that of `eq:x,& &&always` does,
and then the rule would come apart one character earlier. Unless that happens, a rule means the same
with and without the blanks in its operands (`evaluate_of_normal_operands`).
-/

namespace Verdict

/-! ## Outcomes without blanks -/

/-- An error with the text of its clause written without blanks. -/
def ClauseError.normal (e : ClauseError) : ClauseError := ⟨Clause.normal e.clause, e.cause⟩

/-- An event with the text of its clause written without blanks. -/
def Event.normal : Event → Event
  | .decided clause result => .decided (Clause.normal clause) result
  | .skipped op right => .skipped op (Clause.normal right)
  | .loaded path rules => .loaded path rules

namespace Outcome

variable {α : Type}

/-- An outcome with the texts of clauses written without blanks. -/
def normal (o : Outcome ClauseError α) : Outcome ClauseError α :=
  ⟨o.result.mapError (Failure.map ClauseError.normal), o.log.map Event.normal, o.drawn⟩

@[simp] theorem drawn_normal (o : Outcome ClauseError α) : o.normal.drawn = o.drawn := rfl

/-- Whether two outcomes have the same answer, or fail with the same cause or the same fault, and
take as many bits. The texts of clauses and the logs may differ. -/
structure SameEnd (o o' : Outcome ClauseError Bool) : Prop where
  /-- They give the same answer. -/
  answer_iff : ∀ b, o.result = .ok b ↔ o'.result = .ok b
  /-- Their errors have the same cause. -/
  cause_iff : ∀ cause, (∃ clause, o.result = .error (.declared ⟨clause, cause⟩)) ↔
    ∃ clause, o'.result = .error (.declared ⟨clause, cause⟩)
  /-- They meet the same fault. -/
  fault_iff : ∀ f, o.result = .error (.fault f) ↔ o'.result = .error (.fault f)
  /-- They take as many bits. -/
  drawn_eq : o.drawn = o'.drawn

/-- An outcome and what is normal about it end alike. -/
theorem sameEnd_normal (o : Outcome ClauseError Bool) : SameEnd o.normal o where
  answer_iff _ := mapError_eq_ok_iff
  cause_iff cause := by
    simp only [normal, mapError_eq_error_iff, Failure.map_eq_declared_iff]
    constructor
    · rintro ⟨_, _, hresult, e, rfl, heq⟩
      cases heq
      exact ⟨e.clause, hresult⟩
    · rintro ⟨clause, hresult⟩
      exact ⟨_, _, hresult, _, rfl, rfl⟩
  fault_iff f := by
    simp only [normal, mapError_eq_error_iff, Failure.map_eq_fault_iff, exists_eq_right]
  drawn_eq := rfl

/-- Going on after an answer is the same with and without blanks. -/
theorem normal_andThen (first : Outcome ClauseError Bool) (next : Bool → Outcome ClauseError Bool) :
    (first.andThen next).normal = first.normal.andThen fun b => (next b).normal := by
  obtain ⟨result, log, drawn⟩ := first
  cases result with
  | error e => rfl
  | ok b => simp [andThen, normal, Except.mapError, List.map_append]

end Outcome

namespace Evaluator

variable {E : Evaluator} {rule left right : String} {op : Combinator} {bits : Bits}

/-! ## One clause -/

/-- A clause ends as it does without blanks, but for its text. -/
theorem evaluateClause_normal (E : Evaluator) (clause : String) (bits : Bits) :
    E.evaluateClause (Clause.normal clause) bits = (E.evaluateClause clause bits).normal := by
  -- the call sees the name and the arguments alone
  unfold evaluateClause
  simp only [Clause.parse_normal]
  cases (E.call (Clause.parse clause).name (Clause.parse clause).args bits).result with
  | ok b => rfl
  | error e => cases e <;> rfl

/-- **Reading and writing clauses.** What a clause can be read as is exactly a trimmed name without
a colon together with trimmed arguments without a comma, one empty argument alone excepted; and
whatever is of this form is read back from the text that writes it. So a clause that is read,
written and read again has the name and the arguments that it had, and what is written ends as the
clause itself does. -/
theorem clauses_read_back :
    (∀ name args, Clause.Readable name args ↔
      ∃ text, (Clause.parse text).name = name ∧ (Clause.parse text).args = args) ∧
    (∀ name args, Clause.Readable name args →
      Clause.parse (Clause.render name args) = ⟨name, args, Clause.render name args⟩) ∧
    ∀ text, let written := Clause.render (Clause.parse text).name (Clause.parse text).args
      (Clause.parse written).name = (Clause.parse text).name ∧
      (Clause.parse written).args = (Clause.parse text).args ∧
      ∀ (E : Evaluator) (bits : Bits),
        (E.evaluateClause written bits).SameEnd (E.evaluateClause text bits) := by
  refine ⟨fun name args => ⟨fun h => ?_, ?_⟩, fun _ _ => Clause.parse_render, fun text => ?_⟩
  · refine ⟨Clause.render name args, ?_, ?_⟩
    · rw [Clause.parse_render h]
    · rw [Clause.parse_render h]
  · rintro ⟨text, rfl, rfl⟩
    exact Clause.readable_parse text
  · have hparse := Clause.parse_render (Clause.readable_parse text)
    refine ⟨by rw [hparse], by rw [hparse], fun E bits => ?_⟩
    have hsame := (E.evaluateClause text bits).sameEnd_normal
    rwa [← evaluateClause_normal] at hsame

/-- Two arguments, the first of them empty and the second with a colon. -/
theorem clauses_read_back_empty_and_colon :
    Clause.Readable "env" ["", "a: b"] ∧
      Clause.parse "env:,a: b" = ⟨"env", ["", "a: b"], "env:,a: b"⟩ := by
  have h : Clause.Readable "env" ["", "a: b"] :=
    ⟨by decide, by decide, by decide, by decide, by decide⟩
  have hrender : Clause.render "env" ["", "a: b"] = "env:,a: b" := by decide
  exact ⟨h, hrender ▸ clauses_read_back.2.1 "env" ["", "a: b"] h⟩

/-! ## Rules -/

/-- Without blanks the operands of a rule come apart where they did with them, unless the left one
now ends in the mark. -/
theorem split_normal_operands (hsplit : Expression.split rule = .compound left op right)
    (hend : (Clause.normal left).toList.getLast? ≠ some op.mark) :
    Expression.split (Clause.normal left ++ op.token ++ Clause.normal right) =
      .compound (Clause.normal left) op (Clause.normal right) := by
  have hleft : ¬ Combinator.Occurs left.toList := (Expression.left_of_split hsplit).1
  rw [← Clause.occurs_normal_iff] at hleft
  exact Expression.split_joined_iff.2 ⟨hleft, hend⟩

/-- **Blanks around operands and arguments do not count.** A rule of two clauses ends as the rule
does that has them without blanks, unless the left one then ends in the mark of the combinator: with
the same answer, cause or fault, as many bits taken, and, but for the texts of the clauses, the same
error and the same log. -/
theorem evaluate_of_normal_operands (E : Evaluator) (bits : Bits)
    (hsplit : Expression.split rule = .compound left op right)
    (hend : (Clause.normal left).toList.getLast? ≠ some op.mark) :
    let written := Clause.normal left ++ op.token ++ Clause.normal right
    (E.evaluate written bits).SameEnd (E.evaluate rule bits) ∧
      E.evaluate written bits = (E.evaluate rule bits).normal := by
  intro written
  have hwritten : E.evaluate written bits = (E.evaluate rule bits).normal := by
    rw [evaluate_of_compound (split_normal_operands hsplit hend), evaluate_of_compound hsplit,
      Outcome.normal_andThen, evaluateClause_normal, Outcome.drawn_normal]
    congr 1
    funext b
    -- the right operand is skipped, or begins at the same bit
    by_cases hb : b = op.deciding
    · rw [if_pos hb, if_pos hb]
      rfl
    · rw [if_neg hb, if_neg hb, evaluateClause_normal]
  refine ⟨?_, hwritten⟩
  rw [hwritten]
  exact (E.evaluate rule bits).sameEnd_normal

/-- Blanks around the operands, the name and the arguments of an undecided left clause and of a
right one that fails. -/
theorem evaluate_of_normal_operands_days :
    let E : Evaluator := ⟨.empty, ⟨2017, 3, 29, by decide, by decide⟩, .empty⟩
    let rule := " days : wed , 5 && eq: plan, a b "
    Expression.split rule = .compound " days : wed , 5 " .and " eq: plan, a b " ∧
      (Clause.normal " days : wed , 5 ").toList.getLast? ≠ some Combinator.and.mark ∧
      (E.evaluate rule fun _ => false).result =
        .error (.declared ⟨" eq: plan, a b ", .missingKey "plan"⟩) ∧
      (E.evaluate "days:wed,5&&eq:plan,a b" fun _ => false).SameEnd
        (E.evaluate rule fun _ => false) := by
  intro E rule
  have hsplit : Expression.split rule = .compound " days : wed , 5 " .and " eq: plan, a b " := by
    decide +kernel
  have hend : (Clause.normal " days : wed , 5 ").toList.getLast? ≠ some Combinator.and.mark := by
    decide +kernel
  have hwritten : Clause.normal " days : wed , 5 " ++ Combinator.and.token ++
      Clause.normal " eq: plan, a b " = "days:wed,5&&eq:plan,a b" := by decide +kernel
  have hsame := (evaluate_of_normal_operands E (fun _ => false) hsplit hend).1
  rw [hwritten] at hsame
  exact ⟨hsplit, hend, by decide +kernel, hsame⟩

/-- A mark in front of a blank joins earlier once the blank is gone. -/
example : Expression.split (Clause.normal "eq:x,& " ++ Combinator.and.token ++ "always") =
    .compound "eq:x," .and "&always" := by decide

end Evaluator

end Verdict
